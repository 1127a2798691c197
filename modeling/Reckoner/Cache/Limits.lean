import Reckoner.Span

/-!
The limits of a cache and the entries that it keeps. Times and lifetimes are in nanoseconds, and a
cache without a lifetime does not note times.
-/

namespace Reckoner.Cache

structure Limits where
  capacity : Nat
  lifetime : Option Nat
  deriving DecidableEq

def Limits.standard : Limits := ⟨1000, none⟩

structure Entry (α : Type) where
  value : α
  stored : Option Nat

def Limits.entry {α : Type} (limits : Limits) (now : Nat) (value : α) : Entry α :=
  ⟨value, limits.lifetime.map fun _ => now⟩

/-- Whether an entry is past its lifetime. Time that has run backwards makes no entry older. -/
def Limits.isExpired {α : Type} (limits : Limits) (now : Nat) (entry : Entry α) : Bool :=
  match limits.lifetime, entry.stored with
  | some lifetime, some stored => lifetime < now - stored
  | _, _ => false

def Limits.outline (limits : Limits) : String :=
  let lifetime := match limits.lifetime with
    | some lifetime => "Some(" ++ Span.text lifetime ++ ")"
    | none => "None"
  "LruOptions \x7b max_size: " ++ toString limits.capacity ++ ", ttl: " ++ lifetime ++ " \x7d"

end Reckoner.Cache
