import Stagecraft.Error

/-!
This module contains the form of errors in which they end a rendering.
-/

namespace Stagecraft

def RegistryError.report : RegistryError → String
  | alreadyRegistered name => s!"AlreadyRegistered({quoted name})"
  | notRegistered name available =>
    description "NotRegistered" [("name", quoted name), ("available", quotedList available)]

def Error.report : Error → String
  | registry cause => s!"Registry({cause.report})"
  | config cause => s!"Config({quoted cause.message})"
  | instantiation name reason =>
    description "Instantiation" [("widget", quoted name), ("reason", quoted reason)]
  | orchestration cause => s!"Orchestration({quoted cause.message})"
  | widget cause => s!"Widget({quoted cause.message})"
  | action cause => s!"Message({quoted cause.message})"
  | missingFile =>
    let parts := [("code", "2"), ("kind", "NotFound"), ("message", quoted missingFile.detail)]
    "Io(" ++ description "Os" parts ++ ")"
  | document fault => s!"Json(Error({quoted fault.message}))"

end Stagecraft
