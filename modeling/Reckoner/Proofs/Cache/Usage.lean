import Reckoner.Cache
import Reckoner.Cache.Recency

/-!
The use of a memory as a run of actions. What a memory can do is given by its operations, so that a
cache and a recency list are used by the same steps. Where the time comes from does not matter: the
clock may be moved or replaced between any two uses, forwards or backwards.
-/

namespace Reckoner.Cache

inductive Action (α : Type) where
  | set (key : String) (value : α)
  | get (key : String)
  | has (key : String)
  | delete (key : String)
  | clear
  | clock (now : Nat)

inductive Answer (α : Type) where
  | done
  | found (value : Option α)
  | verdict (present : Bool)

structure Report (α : Type) where
  answer : Answer α
  keys : List String
  stats : Stats

/-- What a memory whose states are of type `σ` can do. -/
structure Operations (σ α : Type) where
  set : σ → Nat → String → α → σ
  get : σ → Nat → String → σ × Option α
  has : σ → Nat → String → Bool
  delete : σ → String → σ × Option α
  clear : σ → σ
  keys : σ → List String
  stats : σ → Stats

def operations (α : Type) : Operations (Cache α) α :=
  { set := Cache.set, get := Cache.get, has := Cache.has, delete := Cache.delete,
    clear := Cache.clear, keys := Cache.keys, stats := Cache.stats }

def Recency.operations (α : Type) : Operations (Recency α) α :=
  { set := Recency.set, get := Recency.get, has := Recency.has, delete := Recency.delete,
    clear := Recency.clear, keys := Recency.keys, stats := Recency.stats }

structure Session (σ : Type) where
  memory : σ
  now : Nat

namespace Operations

variable {σ τ α : Type}

def step (operations : Operations σ α) (session : Session σ) : Action α → Session σ × Answer α
  | .set key value =>
      ({ session with memory := operations.set session.memory session.now key value }, .done)
  | .get key =>
      let (memory, value) := operations.get session.memory session.now key
      ({ session with memory }, .found value)
  | .has key => (session, .verdict (operations.has session.memory session.now key))
  | .delete key =>
      let (memory, value) := operations.delete session.memory key
      ({ session with memory }, .found value)
  | .clear => ({ session with memory := operations.clear session.memory }, .done)
  | .clock now => ({ session with now }, .done)

def after (operations : Operations σ α) (session : Session σ) (actions : List (Action α)) :
    Session σ :=
  actions.foldl (fun session action => (operations.step session action).1) session

def reports (operations : Operations σ α) (session : Session σ) :
    List (Action α) → List (Report α)
  | [] => []
  | action :: rest =>
      let (next, answer) := operations.step session action
      ⟨answer, operations.keys next.memory, operations.stats next.memory⟩ ::
        operations.reports next rest

theorem after_induction (operations : Operations σ α) (property : Session σ → Prop)
    (kept : ∀ session action, property session → property (operations.step session action).1)
    (actions : List (Action α)) (session : Session σ) (start : property session) :
    property (operations.after session actions) := by
  induction actions generalizing session with
  | nil => exact start
  | cons action rest ih => exact ih _ (kept session action start)

end Operations

end Reckoner.Cache
