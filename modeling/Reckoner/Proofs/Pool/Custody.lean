import Mathlib.Data.List.Nodup
import Mathlib.Data.List.Perm.Basic
import Reckoner.Pool

/-!
Theory of pools by objects that can be followed. Whatever is taken from a pool and given to it,
every object is in one place: idle, held by a caller, or dropped when the pool was full. The idle
ones are never more than the pool has room for, the one that came last is handed out first, and each
that was given back was reset once since.
-/

namespace Reckoner.Pool

open List (Perm)
open scoped List

variable {α : Type}

/-- Where an object comes from: a pool built it, or somebody gave it to the pool unasked. -/
inductive Origin where
  | built (number : Nat)
  | foreign (number : Nat)
  deriving DecidableEq

structure Tracked (α : Type) where
  origin : Origin
  content : α
  /-- When it was last given to the pool, or built for it. -/
  since : Nat
  given : Option α
  resets : Nat

namespace Tracked

def built (build : Nat → α) (number : Nat) : Tracked α :=
  ⟨.built number, build number, number, none, 0⟩

def foreign (number : Nat) (content : α) : Tracked α :=
  ⟨.foreign number, content, 0, none, 0⟩

def cleared (reset : α → α) (object : Tracked α) : Tracked α :=
  { object with content := reset object.content, resets := object.resets + 1 }

def givenAt (object : Tracked α) (moment : Nat) (content : α) : Tracked α :=
  { object with content, since := moment, given := some content, resets := 0 }

/-- Whether an object is as it was built, or was reset exactly once since it was given back. -/
def IsReady (build : Nat → α) (reset : α → α) (object : Tracked α) : Prop :=
  match object.given with
  | none => object.resets = 0 ∧ ∃ number, object.origin = .built number ∧
      object.content = build number
  | some content => object.resets = 1 ∧ object.content = reset content

theorem IsReady.content {build : Nat → α} {reset : α → α} {object : Tracked α}
    (ready : object.IsReady build reset) :
    (∃ number, object.content = build number) ∨ ∃ content, object.content = reset content := by
  unfold IsReady at ready
  split at ready
  · obtain ⟨-, number, -, built⟩ := ready
    exact Or.inl ⟨number, built⟩
  · exact Or.inr ⟨_, ready.2⟩

theorem isReady_built (build : Nat → α) (reset : α → α) (number : Nat) :
    (built build number).IsReady build reset :=
  ⟨rfl, number, rfl, rfl⟩

theorem isReady_cleared (build : Nat → α) (reset : α → α) (object : Tracked α) (moment : Nat)
    (content : α) : ((object.givenAt moment content).cleared reset).IsReady build reset :=
  ⟨rfl, rfl⟩

end Tracked

inductive Act (α : Type) where
  | take
  | giveBack (place : Nat) (content : α)
  | donate (content : α)

def Act.isDonation : Act α → Bool
  | .donate _ => true
  | _ => false

structure Session (α : Type) where
  pool : Pool (Tracked α)
  held : List (Tracked α)
  dropped : List (Tracked α)
  donated : Nat
  short : Nat
  moment : Nat

namespace Session

def start (options : Options) (build : Nat → α) (reset : α → α) : Session α where
  pool := .new options (.built build) (.cleared reset)
  held := []
  dropped := []
  donated := 0
  short := 0
  moment := min options.preallocate options.capacity

def take (session : Session α) : Session α :=
  let (pool, object) := session.pool.acquire
  { session with
    pool, held := object :: session.held
    short := if session.pool.available = 0 then session.short + 1 else session.short }

def give (session : Session α) (object : Tracked α) (content : α) : Session α :=
  let given := object.givenAt session.moment content
  { session with
    pool := session.pool.release given
    dropped := if session.pool.available = session.pool.capacity then given :: session.dropped
      else session.dropped
    moment := session.moment + 1 }

def step (session : Session α) : Act α → Session α
  | .take => session.take
  | .giveBack place content =>
      match session.held[place]? with
      | some object =>
          { session with held := session.held.eraseIdx place }.give object content
      | none => session
  | .donate content =>
      { session with donated := session.donated + 1 }.give
        (.foreign session.donated content) content

def run (session : Session α) (acts : List (Act α)) : Session α :=
  acts.foldl step session

def everywhere (session : Session α) : List (Tracked α) :=
  session.pool.idle ++ session.held ++ session.dropped

def origins (session : Session α) : List Origin :=
  (List.range session.pool.created).map .built ++ (List.range session.donated).map .foreign

section
variable {session : Session α}

theorem take_of_empty (empty : session.pool.idle = []) :
    session.take = { session with
      pool := { session.pool with created := session.pool.created + 1 }
      held := session.pool.build session.pool.created :: session.held
      short := session.short + 1 } := by
  simp [take, acquire, available, empty]

theorem take_of_idle {object : Tracked α} {others : List (Tracked α)}
    (idle : session.pool.idle = object :: others) :
    session.take = { session with
      pool := { session.pool with idle := others }, held := object :: session.held } := by
  simp [take, acquire, available, idle]

theorem give_of_room (room : session.pool.available < session.pool.capacity) (object : Tracked α)
    (content : α) :
    session.give object content = { session with
      pool := { session.pool with
        idle := session.pool.reset (object.givenAt session.moment content) :: session.pool.idle }
      moment := session.moment + 1 } := by
  rw [available] at room
  simp [give, release, available, room, Nat.ne_of_lt room]

theorem give_of_full (full : session.pool.available = session.pool.capacity) (object : Tracked α)
    (content : α) :
    session.give object content = { session with
      dropped := object.givenAt session.moment content :: session.dropped
      moment := session.moment + 1 } := by
  rw [available] at full
  simp [give, release, available, full]

end

theorem donated_step (session : Session α) (act : Act α) :
    (session.step act).donated = session.donated + if act.isDonation then 1 else 0 := by
  cases act with
  | take => rfl
  | giveBack place content =>
      rw [step]
      split <;> rfl
  | donate content => rfl

theorem donated_run (session : Session α) (acts : List (Act α)) :
    (session.run acts).donated = session.donated + acts.countP Act.isDonation := by
  induction acts generalizing session with
  | nil => rfl
  | cons act acts ih =>
      have later := ih (session.step act)
      rw [donated_step] at later
      rw [List.countP_cons]
      exact later.trans (by omega)

end Session

/-- What holds in a session whatever was done before, except that an object may be on its way to
the pool; `moving` is where it comes from. -/
structure Custody (options : Options) (build : Nat → α) (reset : α → α) (moving : List Origin)
    (session : Session α) : Prop where
  limit : session.pool.capacity = options.capacity
  builds : session.pool.build = .built build
  clears : session.pool.reset = .cleared reset
  room : session.pool.available ≤ session.pool.capacity
  created : session.pool.created = min options.preallocate options.capacity + session.short
  past : ∀ object ∈ session.pool.idle, object.since < session.moment
  latest : session.pool.idle.Pairwise fun object other => other.since < object.since
  ready : ∀ object ∈ session.pool.idle, object.IsReady build reset
  places : (moving ++ session.everywhere.map Tracked.origin).Perm session.origins

namespace Custody

variable {options : Options} {build : Nat → α} {reset : α → α} {session : Session α}

theorem start (options : Options) (build : Nat → α) (reset : α → α) :
    Custody options build reset [] (.start options build reset) := by
  have known : ∀ object ∈ (Session.start options build reset).pool.idle,
      ∃ number < min options.preallocate options.capacity,
        Tracked.built build number = object := by simp [Session.start, new]
  constructor
  case limit => rfl
  case builds => rfl
  case clears => rfl
  case room =>
    rw [Session.start, available, new, List.length_reverse, List.length_map, List.length_range]
    exact Nat.min_le_right _ _
  case created => rfl
  case past =>
    intro object idle
    obtain ⟨number, less, rfl⟩ := known object idle
    exact less
  case latest =>
    rw [Session.start, new, List.pairwise_reverse, List.pairwise_map]
    exact List.pairwise_lt_range
  case ready =>
    intro object idle
    obtain ⟨number, -, rfl⟩ := known object idle
    exact Tracked.isReady_built build reset number
  case places =>
    have built : Tracked.origin ∘ Tracked.built build = .built := rfl
    simp [Session.start, new, Session.everywhere, Session.origins, built]

theorem take (custody : Custody options build reset [] session) :
    Custody options build reset [] session.take := by
  cases idle : session.pool.idle with
  | nil =>
      rw [Session.take_of_empty idle, custody.builds]
      refine { custody with created := congrArg (· + 1) custody.created, places := ?places }
      case places =>
        -- The pool numbers what it builds, so that the origin of the new object is a new one.
        have more := custody.places.cons (Origin.built session.pool.created)
        simp only [Session.everywhere, Session.origins, idle, List.range_succ, List.map_append,
          List.append_assoc] at more ⊢
        exact more.trans List.perm_middle.symm
  | cons object others =>
      have within {other : Tracked α} (member : other ∈ others) : other ∈ session.pool.idle := by
        simp [idle, member]
      have latest := custody.latest
      have room := custody.room
      have places := custody.places
      rw [available, idle, List.length_cons] at room
      rw [Session.everywhere, idle] at places
      rw [idle] at latest
      rw [Session.take_of_idle idle]
      refine
        { custody with
          room := Nat.le_of_succ_le room
          past := fun other member => custody.past other (within member)
          latest := latest.tail
          ready := fun other member => custody.ready other (within member)
          places := Perm.trans (Perm.map _ ?moved) places }
      case moved =>
        simp only [Session.everywhere, List.cons_append]
        exact List.perm_middle.append_right _

theorem give {object : Tracked α} (custody : Custody options build reset [object.origin] session)
    (content : α) : Custody options build reset [] (session.give object content) := by
  have later : ∀ other ∈ session.pool.idle, other.since < session.moment + 1 :=
    fun other idle => Nat.lt_succ_of_lt (custody.past other idle)
  by_cases full : session.pool.available = session.pool.capacity
  · rw [Session.give_of_full full]
    refine { custody with past := later, places := ?places }
    case places =>
      refine List.Perm.trans ?_ custody.places
      simp only [Session.everywhere, List.map_append, List.map_cons]
      exact List.perm_middle
  · have space := Nat.lt_of_le_of_ne custody.room full
    rw [Session.give_of_room space, custody.clears]
    exact
      { custody with
        room := space
        past := List.forall_mem_cons.mpr ⟨Nat.lt_succ_self _, later⟩
        latest := List.pairwise_cons.mpr ⟨custody.past, custody.latest⟩
        ready := List.forall_mem_cons.mpr ⟨Tracked.isReady_cleared .., custody.ready⟩ }

theorem hand {object : Tracked α} (custody : Custody options build reset [] session) {place : Nat}
    (found : session.held[place]? = some object) :
    Custody options build reset [object.origin]
      { session with held := session.held.eraseIdx place } := by
  refine { custody with places := ?places }
  case places =>
    obtain ⟨bound, rfl⟩ := List.getElem?_eq_some_iff.mp found
    have back : session.held[place] :: session.held.eraseIdx place ~ session.held :=
      List.getElem_cons_eraseIdx_perm bound
    have moved := (List.perm_middle.symm.trans (back.append_left session.pool.idle)).append_right
      session.dropped
    exact (moved.map Tracked.origin).trans custody.places

theorem arrive (custody : Custody options build reset [] session) :
    Custody options build reset [.foreign session.donated]
      { session with donated := session.donated + 1 } := by
  refine { custody with places := ?places }
  case places =>
    have more := custody.places.cons (Origin.foreign session.donated)
    simp only [Session.everywhere, Session.origins, List.range_succ, List.map_append] at more ⊢
    refine more.trans ?_
    rw [← List.append_assoc]
    exact (List.perm_append_singleton _ _).symm

theorem step (custody : Custody options build reset [] session) (act : Act α) :
    Custody options build reset [] (session.step act) := by
  cases act with
  | take => exact custody.take
  | giveBack place content =>
      rw [Session.step]
      cases found : session.held[place]? with
      | some object => exact (custody.hand found).give content
      | none => exact custody
  | donate content => exact give custody.arrive content

theorem run (custody : Custody options build reset [] session) (acts : List (Act α)) :
    Custody options build reset [] (session.run acts) := by
  induction acts generalizing session with
  | nil => exact custody
  | cons act acts ih => exact ih (custody.step act)

theorem nodup_origins (session : Session α) : session.origins.Nodup := by
  have built : Function.Injective Origin.built := fun _ _ => Origin.built.inj
  have foreign : Function.Injective Origin.foreign := fun _ _ => Origin.foreign.inj
  refine List.Nodup.append (List.nodup_range.map built) (List.nodup_range.map foreign) ?_
  simp [List.Disjoint]

theorem apart (custody : Custody options build reset [] session) :
    (session.everywhere.map Tracked.origin).Nodup :=
  custody.places.nodup_iff.mpr (nodup_origins session)

theorem balance (custody : Custody options build reset [] session) :
    session.pool.created + session.donated =
      session.pool.available + session.held.length + session.dropped.length := by
  have count := custody.places.length_eq
  simp only [Session.everywhere, Session.origins, List.nil_append, List.length_map,
    List.length_append, List.length_range] at count
  exact count.symm

end Custody

def HandsOutLast (build : Nat → α) (pool : Pool (Tracked α)) : Prop :=
  if pool.available = 0 then
    pool.acquire.2 = .built build pool.created ∧ pool.acquire.1.created = pool.created + 1
  else
    pool.acquire.2 ∈ pool.idle ∧
      (∀ other ∈ pool.idle, other ≠ pool.acquire.2 → other.since < pool.acquire.2.since) ∧
        pool.acquire.1.created = pool.created

theorem Custody.handsOutLast {options : Options} {build : Nat → α} {reset : α → α}
    {session : Session α} (custody : Custody options build reset [] session) :
    HandsOutLast build session.pool := by
  unfold HandsOutLast
  cases idle : session.pool.idle with
  | nil => simp [available, acquire, idle, custody.builds]
  | cons object others =>
      have latest := custody.latest
      rw [idle] at latest
      have before := (List.pairwise_cons.mp latest).1
      simp only [available, acquire, idle, List.length_cons, Nat.succ_ne_zero, if_false,
        List.mem_cons, true_or, true_and, and_true]
      rintro other (rfl | earlier) differs
      · exact absurd rfl differs
      · exact before other earlier

end Reckoner.Pool
