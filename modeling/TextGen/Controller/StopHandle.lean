/-!
Flags by which a generation is told to end. Copies of a handle share its flags, so that one holder
can stop what another one runs.
-/

namespace TextGen

/--
What a stop handle tells: to stop before the next token, and to give up the forward pass that runs.
-/
structure StopHandle where
  stopped : Bool
  cancelled : Bool
  deriving DecidableEq, Repr

namespace StopHandle

def lowered : StopHandle := ⟨false, false⟩

def raised : StopHandle := ⟨true, true⟩

end StopHandle

structure HandleTable where
  handles : List Nat
  flags : List Bool
  deriving DecidableEq, Repr

namespace HandleTable

def initial : HandleTable := ⟨[0], [false]⟩

def create (t : HandleTable) : HandleTable := ⟨t.handles ++ [t.flags.length], t.flags ++ [false]⟩

def copy (t : HandleTable) (handle : Nat) : HandleTable :=
  { t with handles := t.handles ++ (t.handles[handle]?).toList }

def set (t : HandleTable) (handle : Nat) (flag : Bool) : HandleTable :=
  match t.handles[handle]? with
  | some index => { t with flags := t.flags.set index flag }
  | none => t

def view (t : HandleTable) : List Bool := t.handles.map fun index => t.flags.getD index false

end HandleTable

end TextGen
