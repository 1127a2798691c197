import Reckoner.Context
import Reckoner.Proofs.Key
import Reckoner.Proofs.Memo.Bundle

/-!
Theory of contexts. What is remembered never changes an answer, since no two arguments of a
primitive have one key. The caches of the primitives are apart: what a context reports of one
primitive is what it would report if nothing had been asked of the others.
-/

namespace Reckoner

open Counting (Failure)

theorem Primitive.mem_all (primitive : Primitive) : primitive ∈ all := by
  cases primitive with
  | elementary function => cases function <;> decide
  | _ => decide

theorem Primitive.place_injective : Function.Injective place := by
  have apart : ∀ primitive ∈ all, ∀ other ∈ all, primitive.place = other.place →
      primitive = other := by decide
  intro primitive other
  exact apart primitive primitive.mem_all other other.mem_all

theorem Request.eq_of_key {request other : Request} (asked : request.primitive = other.primitive)
    (same : request.key = other.key) : request = other := by
  cases request <;> cases other <;> cases asked
  case elementary function argument argument' =>
    exact congrArg (elementary function) (Key.ofFloat_injective same)
  case factorial n n' => exact congrArg factorial (Key.ofInt_injective same)
  case combination n k n' k' =>
    obtain ⟨rfl, rfl⟩ := Key.ofPair_injective same
    rfl
  case permutation n k n' k' =>
    obtain ⟨rfl, rfl⟩ := Key.ofPair_injective same
    rfl

namespace Context

section
variable (context : Context) (primitive : Primitive)

@[simp] theorem cache_setCache (cache : Cache Float) :
    (context.setCache primitive cache).cache primitive = cache := by
  simp [Context.cache, setCache]

theorem cache_setCache_of_ne {primitive other : Primitive} (apart : primitive ≠ other)
    (cache : Cache Float) :
    (context.setCache primitive cache).cache other = context.cache other := by
  have places : primitive.place.val ≠ other.place.val :=
    fun same => apart (Primitive.place_injective (Fin.ext same))
  simp [Context.cache, setCache, places]

@[simp] theorem setCache_setCache (first last : Cache Float) :
    (context.setCache primitive first).setCache primitive last =
      context.setCache primitive last := by
  simp [setCache]

@[simp] theorem setCache_cache :
    context.setCache primitive (context.cache primitive) = context := by
  simp [Context.cache, setCache]

theorem cache_clearCaches :
    context.clearCaches.cache primitive = (context.cache primitive).clear := by
  simp [Context.cache, clearCaches]

theorem lookup_report :
    context.report.lookup primitive.name = some (context.cache primitive).stats := by
  cases primitive with
  | elementary function => cases function <;> rfl
  | _ => rfl

end

abbrev Asked (primitive : Primitive) : Type :=
  { request : Request // request.primitive = primitive }

def memo (context : Context) (primitive : Primitive) : Memo (Asked primitive) Failure Float where
  key := fun request => request.val.key
  compute := fun request => request.val.compute
  cache := context.cache primitive

theorem consistent (primitive : Primitive) (request other : Asked primitive)
    (same : request.val.key = other.val.key) : request.val.compute = other.val.compute := by
  rw [Request.eq_of_key (request.property.trans other.property.symm) same]

theorem ask_eq (context : Context) (now : Nat) {primitive : Primitive}
    (request : Asked primitive) :
    context.ask now request.val =
      (context.setCache primitive ((context.memo primitive).call now request).1.cache,
        ((context.memo primitive).call now request).2.result) := by
  obtain ⟨request, rfl⟩ := request
  unfold ask Memo.call Memo.callWith Memo.lookup memo
  dsimp only
  cases (context.cache request.primitive).get now request.key with
  | mk cache found =>
      cases found with
      | some value => rfl
      | none =>
          cases given : request.compute with
          | ok value => simp [Memo.store]
          | error failure => rfl

/-- One use of a context. A use with many arguments has a schedule, in which the steps of its calls
follow one another. -/
inductive Use where
  | ask (request : Request)
  | many (function : Elementary) (arguments : List Float) (schedule : List Nat)
  | clear

def Use.concerns (primitive : Primitive) : Use → Bool
  | .ask request => request.primitive == primitive
  | .many function _ _ => .elementary function == primitive
  | .clear => true

def Use.direct : Use → List (Except Failure Float)
  | .ask (.elementary function argument) => [.ok (function.apply argument)]
  | .ask (.factorial n) => [Counting.factorial n]
  | .ask (.combination n k) => [Counting.combination n k]
  | .ask (.permutation n k) => [Counting.permutation n k]
  | .many function arguments _ => arguments.map fun argument => .ok (function.apply argument)
  | .clear => []

theorem Use.direct_ask (request : Request) : (ask request).direct = [request.compute] := by
  cases request <;> rfl

theorem Use.direct_many (function : Elementary) (arguments : List Float) (schedule : List Nat) :
    (many function arguments schedule).direct =
      arguments.map fun argument => (Request.elementary function argument).compute :=
  rfl

def requests (function : Elementary) (arguments : List Float) :
    List (Asked (.elementary function)) :=
  arguments.map fun argument => ⟨.elementary function argument, rfl⟩

def use (context : Context) (now : Nat) : Use → Context × List (Except Failure Float)
  | .ask request =>
      let (context, result) := context.ask now request
      (context, [result])
  | .many function arguments schedule =>
      let (memo, results) :=
        (context.memo (.elementary function)).callMany now schedule (requests function arguments)
      (context.setCache (.elementary function) memo.cache, results)
  | .clear => (context.clearCaches, [])

theorem use_ask (context : Context) (now : Nat) {primitive : Primitive}
    (request : Asked primitive) :
    context.use now (.ask request.val) =
      (context.setCache primitive ((context.memo primitive).call now request).1.cache,
        [((context.memo primitive).call now request).2.result]) := by
  unfold use
  dsimp only
  rw [ask_eq]

def useAll (context : Context) :
    List (Nat × Use) → Context × List (List (Except Failure Float))
  | [] => (context, [])
  | (now, use) :: rest =>
      let (context, results) := context.use now use
      let (context, others) := context.useAll rest
      (context, results :: others)

theorem memo_setCache (context : Context) {primitive : Primitive}
    (memo : Memo (Asked primitive) Failure Float)
    (keyed : memo.key = fun request => request.val.key)
    (computed : memo.compute = fun request => request.val.compute) :
    (context.setCache primitive memo.cache).memo primitive = memo := by
  obtain ⟨key, compute, cache⟩ := memo
  subst keyed computed
  rw [Context.memo, cache_setCache]

theorem askAll_eq (context : Context) (now : Nat) (function : Elementary)
    (arguments : List Float) :
    context.askAll now (arguments.map (.elementary function)) =
      (context.setCache (.elementary function)
          ((context.memo (.elementary function)).callAll now (requests function arguments)).1.cache,
        ((context.memo (.elementary function)).callAll now (requests function arguments)).2.map
          (·.result)) := by
  induction arguments generalizing context with
  | nil => exact Prod.ext (context.setCache_cache _).symm rfl
  | cons argument rest ih =>
      let request : Asked (.elementary function) := ⟨.elementary function argument, rfl⟩
      have frame := (context.memo (.elementary function)).call_frame now request
      have next := context.memo_setCache _ frame.1 frame.2
      have asked := context.ask_eq now request
      dsimp only [request] at asked
      rw [List.map_cons, askAll, asked]
      dsimp only
      rw [ih, next, setCache_setCache]
      rfl

theorem use_many_nil (context : Context) (now : Nat) (function : Elementary)
    (arguments : List Float) :
    context.use now (.many function arguments []) =
      context.askAll now (arguments.map (.elementary function)) := by
  unfold use
  dsimp only
  rw [Memo.callMany_nil, askAll_eq]

def Trusted (context : Context) : Prop :=
  ∀ primitive, Memo.Honest (fun request : Asked primitive => request.val.key)
    (fun request => request.val.compute) ⟨context.memo primitive, 0, []⟩

theorem Trusted.setCache {context : Context} (trusted : context.Trusted) {primitive : Primitive}
    {memo : Memo (Asked primitive) Failure Float}
    (honest : Memo.Honest (fun request : Asked primitive => request.val.key)
      (fun request => request.val.compute) ⟨memo, 0, []⟩) :
    (context.setCache primitive memo.cache).Trusted := by
  intro other
  by_cases same : primitive = other
  · subst same
    rw [context.memo_setCache memo honest.keyed honest.computed]
    exact honest
  · have apart := context.cache_setCache_of_ne same memo.cache
    rw [Context.memo, apart]
    exact trusted other

theorem Trusted.ask {context : Context} (trusted : context.Trusted) (now : Nat)
    {primitive : Primitive} (request : Asked primitive) :
    (context.use now (.ask request.val)).2 = [request.val.compute] ∧
      (context.use now (.ask request.val)).1.Trusted := by
  have timed := (trusted primitive).step (consistent primitive) (.clock now)
  have given := (timed.transparent (consistent primitive)).call request
  have honest := (trusted primitive).call (consistent primitive) now request
  rw [use_ask]
  exact ⟨congrArg List.singleton given, trusted.setCache honest⟩

theorem Trusted.use {context : Context} (trusted : context.Trusted) (now : Nat) (use : Use) :
    (context.use now use).2 = use.direct ∧ (context.use now use).1.Trusted := by
  cases use with
  | ask request =>
      rw [Use.direct_ask]
      exact trusted.ask now ⟨request, rfl⟩
  | many function arguments schedule =>
      have called := (trusted (.elementary function)).callMany (consistent _) now schedule
        (requests function arguments)
      exact ⟨called.2.trans (by simp [requests, Use.direct_many]), trusted.setCache called.1⟩
  | clear =>
      refine ⟨rfl, ?_⟩
      intro primitive
      have cleared := (trusted primitive).step (consistent primitive) .clear
      have same : (context.use now .clear).1.memo primitive = (context.memo primitive).clear :=
        congrArg (Memo.mk _ _) (context.cache_clearCaches primitive)
      rw [same]
      exact cleared

theorem Trusted.useAll {context : Context} (trusted : context.Trusted) (uses : List (Nat × Use)) :
    (context.useAll uses).2 = uses.map (·.2.direct) := by
  induction uses generalizing context with
  | nil => rfl
  | cons first rest ih =>
      obtain ⟨now, use⟩ := first
      have used := trusted.use now use
      exact congrArg₂ List.cons used.1 (ih used.2)

theorem cache_withBuffers (options : Options) (buffers : Pool (List Float))
    (primitive : Primitive) :
    (withBuffers options buffers).cache primitive = .new (options.limits primitive) := by
  cases primitive with
  | elementary function => cases function <;> rfl
  | _ => rfl

theorem trusted_withBuffers (options : Options) (buffers : Pool (List Float)) :
    (withBuffers options buffers).Trusted := by
  intro primitive
  rw [Context.memo, cache_withBuffers]
  exact Memo.new_honest _ _ _ _

section
variable {primitive : Primitive}

theorem cache_use_of_not_concerns {use : Use} (apart : use.concerns primitive = false)
    (context : Context) (now : Nat) :
    (context.use now use).1.cache primitive = context.cache primitive := by
  cases use with
  | ask request =>
      have other : request.primitive ≠ primitive := by simpa [Use.concerns] using apart
      have used := context.use_ask now ⟨request, rfl⟩
      rw [used]
      exact context.cache_setCache_of_ne other _
  | many function arguments schedule =>
      have other : .elementary function ≠ primitive := by simpa [Use.concerns] using apart
      exact context.cache_setCache_of_ne other _
  | clear => simp [Use.concerns] at apart

theorem cache_use_eq {use : Use} (concerned : use.concerns primitive = true)
    {context other : Context} (same : context.cache primitive = other.cache primitive)
    (lasting : (context.cache primitive).limits.lifetime = none) (now later : Nat) :
    (context.use now use).1.cache primitive = (other.use later use).1.cache primitive := by
  have memos : context.memo primitive = other.memo primitive := congrArg (Memo.mk _ _) same
  cases use with
  | ask request =>
      obtain rfl : request.primitive = primitive := by simpa [Use.concerns] using concerned
      have used := context.use_ask now ⟨request, rfl⟩
      have used' := other.use_ask later ⟨request, rfl⟩
      rw [used, used', cache_setCache, cache_setCache, ← memos, Memo.call_lasting lasting now later]
  | many function arguments schedule =>
      obtain rfl : .elementary function = primitive := by simpa [Use.concerns] using concerned
      unfold Context.use
      dsimp only
      rw [cache_setCache, cache_setCache, ← memos, Memo.callMany_lasting lasting now later]
  | clear =>
      unfold Context.use
      dsimp only
      rw [cache_clearCaches, cache_clearCaches, same]

theorem limits_use (context : Context) (now : Nat) (use : Use) :
    ((context.use now use).1.cache primitive).limits = (context.cache primitive).limits := by
  by_cases concerned : use.concerns primitive = true
  · cases use with
    | ask request =>
        obtain rfl : request.primitive = primitive := by simpa [Use.concerns] using concerned
        have used := context.use_ask now ⟨request, rfl⟩
        rw [used, cache_setCache, Memo.limits_call]
        rfl
    | many function arguments schedule =>
        obtain rfl : .elementary function = primitive := by simpa [Use.concerns] using concerned
        unfold Context.use
        dsimp only
        rw [cache_setCache, Memo.limits_callMany]
        rfl
    | clear =>
        unfold Context.use
        dsimp only
        rw [cache_clearCaches]
        rfl
  · rw [cache_use_of_not_concerns (by simpa using concerned)]

theorem cache_useAll_eq {context other : Context}
    (same : context.cache primitive = other.cache primitive)
    (lasting : (context.cache primitive).limits.lifetime = none) {uses others : List (Nat × Use)}
    (chosen : others.map (·.2) = (uses.map (·.2)).filter (·.concerns primitive)) :
    (context.useAll uses).1.cache primitive = (other.useAll others).1.cache primitive := by
  induction uses generalizing context other others with
  | nil =>
      obtain rfl : others = [] := List.map_eq_nil_iff.mp chosen
      exact same
  | cons first rest ih =>
      obtain ⟨now, use⟩ := first
      have kept : ((context.use now use).1.cache primitive).limits.lifetime = none := by
        rw [limits_use, lasting]
      rw [List.map_cons] at chosen
      cases concerned : use.concerns primitive with
      | true =>
          rw [List.filter_cons_of_pos concerned] at chosen
          obtain ⟨⟨later, use'⟩, back, rfl, rfl, left⟩ := List.map_eq_cons_iff.mp chosen
          exact ih (cache_use_eq concerned same lasting now later) kept left
      | false =>
          rw [List.filter_cons_of_neg (by simp [concerned])] at chosen
          have unchanged := cache_use_of_not_concerns concerned context now
          exact ih (unchanged.trans same) kept chosen

end

/-- Whether uses of a new context get what the primitives themselves give, and the context reports
of each primitive what it reports after only the uses that concern the primitive. -/
structure Isolated (options : Options) (buffers : Pool (List Float)) (uses : List (Nat × Use)) :
    Prop where
  answers : ((withBuffers options buffers).useAll uses).2 = uses.map (·.2.direct)
  reports : ∀ primitive others,
    others.map (·.2) = (uses.map (·.2)).filter (Use.concerns primitive) →
      ∃ stats,
        ((withBuffers options buffers).useAll uses).1.report.lookup primitive.name = some stats ∧
          ((withBuffers options buffers).useAll others).1.report.lookup primitive.name = some stats

/-- In a context in which nothing grows old, what is remembered never changes an answer, and no
primitive touches the cache of another. -/
theorem isolated_after (options : Options) (buffers : Pool (List Float))
    (lasting : ∀ primitive, (options.limits primitive).lifetime = none) (uses : List (Nat × Use)) :
    Isolated options buffers uses := by
  constructor
  case answers => exact (trusted_withBuffers options buffers).useAll uses
  case reports =>
    intro primitive others chosen
    have none : ((withBuffers options buffers).cache primitive).limits.lifetime = none := by
      rw [cache_withBuffers]
      exact lasting primitive
    have same := cache_useAll_eq rfl none chosen
    exact ⟨_, lookup_report _ _, same ▸ lookup_report _ _⟩

theorem isolated_after_few :
    let options : Options := ⟨⟨1, none⟩, ⟨0, none⟩, ⟨2, none⟩, ⟨16, 2⟩⟩
    let uses := [(5, .ask (.elementary .sin 0.0)), (3, .many .cos [0.5, -0.0] [1, 0, 0, 1]),
      (9, .ask (.combination 5 2)), (9, .ask (.permutation 5 2)), (8, .ask (.factorial (-3))),
      (9, .clear), (11, .ask (.permutation 2 5)), (12, .ask (.elementary .ln 2.0))]
    (∀ primitive, (options.limits primitive).lifetime = none) ∧
      Isolated options (.new options.buffers (fun _ => []) (fun _ => [])) uses := by
  intro options uses
  have lasting : ∀ primitive, (options.limits primitive).lifetime = none := by
    intro primitive
    cases primitive with
    | elementary function => cases function <;> rfl
    | _ => rfl
  exact ⟨lasting, isolated_after options _ lasting uses⟩

end Context

end Reckoner
