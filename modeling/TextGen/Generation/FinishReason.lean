/-!
Why a generation ended.
-/

namespace TextGen

inductive FinishReason
  | stop
  | length
  | cancelled
  | contextLimitReached
  deriving DecidableEq, Repr

namespace FinishReason

def name : FinishReason → String
  | stop => "stop"
  | length => "length"
  | cancelled => "cancelled"
  | contextLimitReached => "contextlimitreached"

def title : FinishReason → String
  | stop => "Stop"
  | length => "Length"
  | cancelled => "Cancelled"
  | contextLimitReached => "ContextLimitReached"

def all : List FinishReason := [stop, length, cancelled, contextLimitReached]

def ofName? (name : String) : Option FinishReason := all.find? (·.name = name)

end FinishReason

end TextGen
