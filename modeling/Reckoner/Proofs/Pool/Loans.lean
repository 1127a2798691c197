import Reckoner.Context
import Reckoner.Proofs.Pool.Custody

/-!
Theory of what pools hand out. To follow the objects changes nothing: a pool of plain objects goes
through the same states. So what a pool hands out is as it was built or as it was reset, and a
buffer of a context is empty.
-/

namespace Reckoner

namespace Pool

variable {α : Type}

structure Loans (α : Type) where
  pool : Pool α
  held : List α

namespace Loans

def step (loans : Loans α) : Act α → Loans α
  | .take =>
      let (pool, object) := loans.pool.acquire
      ⟨pool, object :: loans.held⟩
  | .giveBack place content =>
      if place < loans.held.length then
        ⟨loans.pool.release content, loans.held.eraseIdx place⟩
      else loans
  | .donate content => ⟨loans.pool.release content, loans.held⟩

def run (loans : Loans α) (acts : List (Act α)) : Loans α :=
  acts.foldl step loans

end Loans

namespace Session

def plain (build : Nat → α) (reset : α → α) (session : Session α) : Loans α where
  pool :=
    { capacity := session.pool.capacity, build, reset
      idle := session.pool.idle.map Tracked.content, created := session.pool.created }
  held := session.held.map Tracked.content

theorem plain_start (options : Options) (build : Nat → α) (reset : α → α) :
    (start options build reset).plain build reset = ⟨.new options build reset, []⟩ := by
  have built : Tracked.content ∘ Tracked.built build = build := rfl
  simp [plain, start, new, built]

section
variable {build : Nat → α} {reset : α → α} {session : Session α}

theorem plain_take (builds : session.pool.build = .built build) :
    session.take.plain build reset = (session.plain build reset).step .take := by
  cases idle : session.pool.idle with
  | nil => simp [take_of_empty idle, plain, Loans.step, acquire, idle, builds, Tracked.built]
  | cons object others => simp [take_of_idle idle, plain, Loans.step, acquire, idle]

theorem plain_give (clears : session.pool.reset = .cleared reset) (object : Tracked α)
    (content : α) :
    (session.give object content).plain build reset =
      ⟨(session.plain build reset).pool.release content, session.held.map Tracked.content⟩ := by
  unfold give plain release
  simp only [List.length_map]
  split
  · simp [clears, Tracked.cleared, Tracked.givenAt]
  · rfl

theorem plain_step (builds : session.pool.build = .built build)
    (clears : session.pool.reset = .cleared reset) (act : Act α) :
    (session.step act).plain build reset = (session.plain build reset).step act := by
  cases act with
  | take => exact plain_take builds
  | giveBack place content =>
      rw [step, Loans.step]
      cases found : session.held[place]? with
      | some object =>
          obtain ⟨bound, -⟩ := List.getElem?_eq_some_iff.mp found
          rw [if_pos (by simpa [plain] using bound)]
          refine (plain_give ?_ object content).trans ?_
          · exact clears
          · simp [plain, List.eraseIdx_map]
      | none =>
          have beyond := List.getElem?_eq_none_iff.mp found
          rw [if_neg (by simpa [plain] using beyond)]
  | donate content => exact plain_give clears _ content

end

theorem plain_run {options : Options} {build : Nat → α} {reset : α → α} {session : Session α}
    (custody : Custody options build reset [] session) (acts : List (Act α)) :
    (session.run acts).plain build reset = (session.plain build reset).run acts := by
  induction acts generalizing session with
  | nil => rfl
  | cons act acts ih =>
      have next := ih (custody.step act)
      rw [plain_step custody.builds custody.clears act] at next
      exact next

end Session

/-- What a pool keeps to in a session, whatever was done in it. -/
structure Orderly (options : Options) (build : Nat → α) (reset : α → α) (acts : List (Act α))
    (session : Session α) : Prop where
  bounded : session.pool.available ≤ options.capacity
  created : session.pool.created = min options.preallocate options.capacity + session.short
  latest : HandsOutLast build session.pool
  ready : ∀ object ∈ session.pool.idle, object.IsReady build reset
  apart : (session.everywhere.map Tracked.origin).Nodup
  balance : session.pool.created + acts.countP Act.isDonation =
    session.pool.available + session.held.length + session.dropped.length
  plain : session.plain build reset = (Loans.mk (.new options build reset) []).run acts

theorem orderly_run (options : Options) (build : Nat → α) (reset : α → α) (acts : List (Act α)) :
    Orderly options build reset acts ((Session.start options build reset).run acts) := by
  have custody := (Custody.start options build reset).run acts
  constructor
  case bounded =>
    rw [← custody.limit]
    exact custody.room
  case created => exact custody.created
  case latest => exact custody.handsOutLast
  case ready => exact custody.ready
  case apart => exact custody.apart
  case balance =>
    have balance := custody.balance
    rw [Session.donated_run, Session.start, Nat.zero_add] at balance
    exact balance
  case plain =>
    rw [Session.plain_run (Custody.start options build reset), Session.plain_start]

theorem acquire_run (options : Options) (build : Nat → α) (reset : α → α) (acts : List (Act α)) :
    (∃ number, ((Loans.mk (.new options build reset) []).run acts).pool.acquire.2 = build number) ∨
      ∃ content,
        ((Loans.mk (.new options build reset) []).run acts).pool.acquire.2 = reset content := by
  have orderly := orderly_run options build reset acts
  rw [← orderly.plain]
  have ready := orderly.ready
  generalize (Session.start options build reset).run acts = session at ready
  cases idle : session.pool.idle with
  | nil => exact Or.inl ⟨session.pool.created, by simp [Session.plain, acquire, idle]⟩
  | cons object others =>
      have out : (session.plain build reset).pool.acquire.2 = object.content := by
        simp [Session.plain, acquire, idle]
      rw [out]
      exact (ready object (by simp [idle])).content

end Pool

namespace Context

inductive Borrowing where
  | buffer
  | recycle (content : List Float)

def borrow (context : Context) : Borrowing → Context
  | .buffer => context.buffer.1
  | .recycle content => context.recycle content

/-- A buffer that is recycled need not be one that was taken. -/
def Borrowing.act : Borrowing → Pool.Act (List Float)
  | .buffer => .take
  | .recycle content => .donate content

theorem buffers_borrow (context : Context) (held : List (List Float))
    (borrowings : List Borrowing) :
    (borrowings.foldl borrow context).buffers =
      ((Pool.Loans.mk context.buffers held).run (borrowings.map Borrowing.act)).pool := by
  induction borrowings generalizing context held with
  | nil => rfl
  | cons borrowing borrowings ih =>
      cases borrowing with
      | buffer => exact ih context.buffer.1 (context.buffer.2 :: held)
      | recycle content => exact ih (context.recycle content) held

theorem buffer_empty (options : Options) (borrowings : List Borrowing) :
    (borrowings.foldl borrow (.new options)).buffer.2 = [] := by
  have buffers := buffers_borrow (.new options) [] borrowings
  have out := Pool.acquire_run options.buffers (fun _ => []) (fun _ => [])
    (borrowings.map Borrowing.act)
  rw [buffer, buffers]
  rcases out with ⟨-, out⟩ | ⟨-, out⟩ <;> exact out

end Context

/-- Pools of any objects are orderly, and a context hands out empty buffers, whatever was
recycled. -/
theorem Pool.orderly_buffers :
    (∀ (α : Type) (options : Options) (build : Nat → α) (reset : α → α) (acts : List (Act α)),
      Orderly options build reset acts ((Session.start options build reset).run acts)) ∧
    ∀ (options : Context.Options) (borrowings : List Context.Borrowing),
      (borrowings.foldl Context.borrow (.new options)).buffer.2 = [] := by
  refine ⟨?pools, Context.buffer_empty⟩
  case pools =>
    intro α options build reset acts
    exact orderly_run options build reset acts

end Reckoner
