import Stratus.Data.Basic

/-!
Nested scopes of variables. A scope is known by its place in the list of scopes, and its parent
stands before it.
-/
namespace Stratus

structure Scope where
  vars : Assoc Data := []
  parent : Option Nat := none
deriving Inhabited

namespace Scope

def get? (scopes : List Scope) (index : Nat) (name : String) : Option Data :=
  match scopes[index]? with
  | none => none
  | some scope =>
    match Assoc.get? scope.vars name with
    | some value => some value
    | none =>
      match scope.parent with
      | some parent => if _h : parent < index then get? scopes parent name else none
      | none => none
termination_by index

def set (scopes : List Scope) (index : Nat) (name : String) (value : Data) : List Scope :=
  scopes.modify index fun scope => { scope with vars := Assoc.set scope.vars name value }

def names (scopes : List Scope) (index : Nat) : List String :=
  match scopes[index]? with
  | some scope => Assoc.keys scope.vars
  | none => []

end Scope

end Stratus
