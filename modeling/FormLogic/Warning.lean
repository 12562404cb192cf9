import FormLogic.Evaluation
import FormLogic.Revision

/-!
This module contains the warnings that are given when expressions turn out to be malformed and when
doubtful fields come in. What a catalogue tells about the requests themselves, and what is told
below the level of warnings, is left out, since no answer depends on it.
-/

namespace FormLogic

structure Warning where
  message : String
  details : List (String × String)
deriving DecidableEq

namespace Warning

def ofMalformed (error : MalformedLogic) (logic : List LogicToken) : Warning :=
  ⟨"Invalid logic stack", [("error", error.message), ("tokens", LogicToken.render logic)]⟩

def ofDoubt (name : String) (d : Doubt) : Warning :=
  let subject := match d with
    | .duplicateId id => ("id", id)
    | .unresolvedOperand id => ("operand", id)
  ⟨d.message, [("field", name), subject]⟩

end Warning

def Event.warning? : Event → Option Warning
  | .evaluated _ => none
  | .malformed error logic => some (.ofMalformed error logic)

def Revision.warnings (r : Revision) : List Warning := r.doubts.map (.ofDoubt r.name)

end FormLogic
