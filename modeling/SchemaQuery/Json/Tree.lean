import SchemaQuery.Json.Value

/-!
# JSON text as read

A text is read into a tree before anyone asks what it is meant to be. The tree keeps the first place
where the text breaks off or goes wrong, so that a decoder that walks it in order of the text meets
the first problem first, whether that is a flaw of the text or a value of the wrong shape. A value
that nobody asks for is held to weaker rules than one that is decoded: its numbers may be beyond
every double and its texts may hold half a surrogate pair. A leaf therefore says of both.
-/

set_option autoImplicit false

namespace SchemaQuery.Json

inductive Fault where
  | malformed
  | truncated
  | mismatched
  deriving DecidableEq, Repr

inductive Breakage where
  | absent
  | alien
  | null (fault : Fault)
  | bool (fault : Fault)
  | number (fault : Fault)
  /-- A text breaks off; `skipped` is the fault when nobody asks for it. -/
  | text (read skipped : Fault)
  deriving DecidableEq, Repr

def Breakage.read : Breakage → Fault
  | absent => .truncated
  | alien => .malformed
  | null fault => fault
  | bool fault => fault
  | number fault => fault
  | text read _ => read

def Breakage.skipped : Breakage → Fault
  | absent => .truncated
  | alien => .malformed
  | null fault => fault
  | bool fault => fault
  | number _ => .malformed
  | text _ skipped => skipped

mutual

inductive Tree where
  | null
  | bool (b : Bool)
  | number (n : Option Number)
  | text (s : Option String)
  | array (items : TreeItems)
  | object (members : TreeMembers)
  | broken (b : Breakage)

inductive TreeItems where
  | close
  | stop (fault : Fault)
  | item (value : Tree) (rest : TreeItems)

inductive TreeMembers where
  | close
  | stop (fault : Fault)
  | member (name : Option String) (value : Tree) (rest : TreeMembers)
  /-- No name stands where a member should begin. The faults are those met when a member is decoded
  and when it is passed over. -/
  | nameless (read skipped : Fault)

end

/-- The fault in decoding a tree as something that it is not. A scalar is read to its end before its
kind is looked at. -/
def Tree.misfit : Tree → Fault
  | .number none | .text none => .malformed
  | .broken b => b.read
  | _ => .mismatched

mutual

def Tree.skip : Tree → Except Fault Unit
  | .array items => items.skip
  | .object members => members.skip
  | .broken b => .error b.skipped
  | .null | .bool _ | .number _ | .text _ => .ok ()

def TreeItems.skip : TreeItems → Except Fault Unit
  | .close => .ok ()
  | .stop fault => .error fault
  | .item value rest => do
    value.skip
    rest.skip

def TreeMembers.skip : TreeMembers → Except Fault Unit
  | .close => .ok ()
  | .stop fault => .error fault
  | .member _ value rest => do
    value.skip
    rest.skip
  | .nameless _ skipped => .error skipped

end

mutual

def toTree : Json → Tree
  | .null => .null
  | .bool b => .bool b
  | .number n => .number (some n)
  | .text s => .text (some s)
  | .array items => .array (treeItems items)
  | .object members => .object (treeMembers members)

def treeItems : List Json → TreeItems
  | [] => .close
  | item :: items => .item (toTree item) (treeItems items)

def treeMembers : List (String × Json) → TreeMembers
  | [] => .close
  | (name, value) :: members => .member (some name) (toTree value) (treeMembers members)

end

end SchemaQuery.Json
