import Conform.Keyed
import Conform.Metadata.Entry

set_option autoImplicit false

/-!
# Metadata registries

A validator does not hold its metadata entry.  It holds a handle, a key together with the registry
that the key is looked up in, and what is made from the validator holds the same handle, so that
all of them show the entry that was written last.

## Main definitions

* `Conform.Metadata.Key`: a key chosen by the user, or one that was generated.
* `Conform.Metadata.Registry`: entries under keys.
* `Conform.Metadata.Store`: the registries there are, and the count of generated keys.
* `Conform.Metadata.Handle`: a key in one of the registries.

## Main results

* `Conform.Metadata.Store.shown?_write`: a look-up after a write.
-/

namespace Conform.Metadata

/-- A registry key.  A generated key equals no key that a user can choose and no other generated
one. -/
inductive Key where
  | named (text : String)
  | generated (serial : Nat)
  deriving DecidableEq, Repr

namespace Key

/-- The order of keys: by code points, generated keys after all others. -/
def before : Key → Key → Bool
  | named a, named b => decide (a < b)
  | named _, generated _ => true
  | generated _, named _ => false
  | generated a, generated b => decide (a < b)

/-- Inserts a key into ascending keys, unless it is there. -/
def insertInto (key : Key) : List Key → List Key
  | [] => [key]
  | first :: rest =>
    if key = first then first :: rest
    else if key.before first then key :: first :: rest
    else first :: insertInto key rest

/-- The keys in ascending order, each once. -/
def sorted (keys : List Key) : List Key := keys.foldl (fun found key => insertInto key found) []

/-- The text of a key that a user chose. -/
def text? : Key → Option String
  | named text => some text
  | generated _ => none

end Key

/-- Entries under keys. -/
abbrev Registry := Keyed Key Entry

/-- The registries of a program: one that everything shares and one of its own for whoever wants
to keep entries apart. -/
inductive Scope where
  | shared
  | own
  deriving DecidableEq, Repr

/-- A key in one of the registries. -/
structure Handle where
  /-- The registry that the key is looked up in. -/
  scope : Scope
  /-- The key. -/
  key : Key
  deriving DecidableEq, Repr

/-- The registries, with the number of keys generated so far. -/
structure Store where
  /-- The shared registry. -/
  shared : Registry
  /-- The separate registry. -/
  own : Registry
  /-- How many keys were generated. -/
  issued : Nat

namespace Store

/-- Empty registries. -/
def empty : Store := ⟨Keyed.empty, Keyed.empty, 0⟩

/-- One of the registries. -/
def registry (store : Store) : Scope → Registry
  | .shared => store.shared
  | .own => store.own

/-- Writes an entry under a key of a registry. -/
def write (store : Store) (scope : Scope) (key : Key) (entry : Entry) : Store :=
  match scope with
  | .shared => { store with shared := store.shared.set key entry }
  | .own => { store with own := store.own.set key entry }

/-- A key that was never used, and the store in which it counts as used. -/
def generate (store : Store) : Key × Store :=
  (.generated store.issued, { store with issued := store.issued + 1 })

/-- The entry that a handle shows now. -/
def shown? (store : Store) (handle : Handle) : Option Entry :=
  (store.registry handle.scope).get? handle.key

/-- A write changes one registry, under one key. -/
theorem registry_write (store : Store) (scope : Scope) (key : Key) (entry : Entry) (seen : Scope) :
    (store.write scope key entry).registry seen
      = if seen = scope then (store.registry seen).set key entry else store.registry seen := by
  cases scope <;> cases seen <;> rfl

/-- **Look-up after a write**: the handles of the key written show the entry written, all others
what they showed before. -/
theorem shown?_write (store : Store) (scope : Scope) (key : Key) (entry : Entry)
    (handle : Handle) :
    (store.write scope key entry).shown? handle
      = if handle = ⟨scope, key⟩ then some entry else store.shown? handle := by
  obtain ⟨seen, wanted⟩ := handle
  cases scope <;> cases seen <;> simp [write, shown?, registry, Keyed.get?_set]

end Store

end Conform.Metadata
