import FormLogic.Json.Fault
import FormLogic.Logic.Postfix

/-!
This module contains the ways in which a request can fail.
-/

namespace FormLogic

inductive Error where
  | unreadable (fault : Fault)
  | malformedLogic (error : MalformedLogic)
  | unknownField (name : String)

namespace Error

/--
The error in words. What is no JSON at all has none.
-/
def message? : Error → Option String
  | unreadable .notJson => none
  | unreadable (.mismatch m) => some ("JSON 序列化错误: " ++ m.message)
  | malformedLogic error => some error.message
  | unknownField name => some ("字段不存在: " ++ name)

end Error

end FormLogic
