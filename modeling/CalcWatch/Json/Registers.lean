import CalcWatch.Json.Text
import CalcWatch.Register

/-!
# JSON forms of registers

Selectors are bare bytes and cells are bare bytes: reading does not mask them, so a stored machine
comes back exactly as it was written. It also means that a text can hold a selector or a digit that
the watch itself never makes. Whether registers that were read are in order is therefore a question
of its own, which `Machine.sound_restore_iff` settles.
-/

namespace CalcWatch

open Json (fields? required)
open JsonForm (encode decode?)

instance : JsonForm Bank where
  encode bank := encode bank.number
  decode? j := (decode? j).map Bank.mk

instance : JsonForm Reg where
  encode r := encode r.number
  decode? j := (decode? j).map Reg.mk

instance : JsonForm RegisterFile where
  encode file := .record [("banks", encode file.banks)]
  decode? j := do
    match ← fields? ["banks"] j with
    | [banks] => pure { banks := ← required banks }
    | _ => none

instance : JsonForm Control where
  encode control :=
    .record
      [("pc", encode control.pc), ("sp", encode control.sp), ("sa", encode control.sa),
       ("la", encode control.la), ("flags", encode control.flags),
       ("current_bank", encode control.currentBank),
       ("additional_bank", encode control.additionalBank)]
  decode? j := do
    match ← fields? ["pc", "sp", "sa", "la", "flags", "current_bank", "additional_bank"] j with
    | [pc, sp, sa, la, flags, current, additional] =>
      pure
        { pc := ← required pc, sp := ← required sp, sa := ← required sa, la := ← required la,
          flags := ← required flags, currentBank := ← required current,
          additionalBank := ← required additional }
    | _ => none

end CalcWatch
