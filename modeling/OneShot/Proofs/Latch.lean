/-
# OneShot.Proofs.Latch -- demand is a latch

A handle takes notice of demand once.  Zero is refused, and where there is demand already,
or none is wanted any more, more of it changes nothing (`Store.request_still`).  The first
positive amount does what any other would have done in its place (`Store.request_positive`),
and leaves behind a handle that is deaf (`Machine.Ready.deafens`), whatever the consumer does
when it is called.

So of a list of requests on one handle, made one after the other, the first positive one
counts, and it counts as one (`demand_is_latch`).
-/
import OneShot.Proofs.Lockstep
import OneShot.Proofs.Filing
import OneShot.Proofs.Release
import OneShot.Proofs.Grammar

namespace OneShot

set_option autoImplicit false

variable {α ε : Type}

/-! ## One request -/

namespace Store

/-- Demand makes no difference to the handle: it is released, or neither waits for demand
nor holds a value that does. -/
def Deaf (st : Store α ε) (h : HandleRef) : Prop :=
  st.alive h = true → st.phase h ≠ .idle ∧ st.phase h ≠ .parked

/-- What a request says before anything comes of it. -/
def remarks (st : Store α ε) (h : HandleRef) (n : UInt64) : List (Event α ε) :=
  if st.alive h then .requesting h n :: (if n = 0 then [.noticed (.zeroDemand h)] else []) else []

/-- What comes of the first positive amount. -/
def serve (st : Store α ε) (h : HandleRef) : Effect α ε :=
  { st.request h 1 with events := (st.request h 1).events.tail }

section Request

variable {st : Store α ε} {h : HandleRef} {n : UInt64}

/-- **A request that is refused, or comes too late, changes nothing.** -/
theorem request_still (quiet : n = 0 ∨ st.Deaf h) :
    st.request h n = ⟨st, st.remarks h n, if st.alive h then [.letGo [h]] else []⟩ := by
  have asks := st.request_asks h n
  generalize st.request h n = e at asks ⊢
  cases asks with
  | missed gone => simp [remarks, gone, Effect.quiet]
  | refused found on zero => simp [remarks, alive, found, on, zero]
  | again found on positive => simp [remarks, alive, found, on, positive]
  | first found on positive phase | served found on positive phase
  | spoilt found on positive phase | empty found on positive phase =>
      obtain ⟨idle, parked⟩ := quiet.resolve_left positive (by simp [alive, found, on])
      rw [← phase_of found] at phase
      contradiction

/-- **One positive amount is as good as any other.** -/
theorem request_positive (positive : n ≠ 0) :
    st.request h n = (st.serve h).after (st.remarks h n) := by
  have one : (1 : UInt64) ≠ 0 := by decide
  cases found : st.handles[h]? with
  | none => simp [serve, request, remarks, alive, found, Effect.quiet, Effect.after]
  | some x =>
      by_cases dead : x.released = true
      · simp [serve, request, remarks, alive, found, dead, Effect.quiet, Effect.after]
      · -- the amount is told, and nothing else is done with it
        simp only [serve, request, remarks, alive, found, dead, positive, one, Effect.after]
        cases x.phase with
        | parked => rcases x.parked with _ | (_ | _ | _) <;> simp [dead]
        | _ => simp [dead]

/-- A parked value is served. -/
theorem serve_parked {x : Handle α ε} (found : st.handles[h]? = some x) (on : x.released = false)
    (parked : x.phase = .parked) {v : α} (slot : x.parked = some (.value v)) :
    st.serve h = ⟨st.modifyHandle h fun x =>
        { x with phase := .served, parked := none, keepAlive := false },
      [.noticed (.demandMet h)], [.notify h (.next v), .letGo [h]]⟩ := by
  simp [serve, request, found, on, parked, slot]

/-- Without a parked value, demand is noted at most, and no owner sees it. -/
theorem serve_unparked (unparked : st.phase h ≠ .parked) :
    (st.serve h).events = [] ∧ (st.serve h).tasks = (if st.alive h then [.letGo [h]] else []) ∧
      (st.serve h).store.alive h = st.alive h ∧
      ∀ agenda, (st.serve h).store.owned agenda h = st.owned agenda h := by
  cases found : st.handles[h]? with
  | none => simp [serve, request, alive, found, Effect.quiet]
  | some x =>
      by_cases dead : x.released = true
      · simp [serve, request, alive, found, dead, Effect.quiet]
      · have one : (1 : UInt64) ≠ 0 := by decide
        cases phase : x.phase with
        | parked => exact absurd ((phase_of found).trans phase) unparked
        | idle =>
            have noted : (st.modifyHandle h fun x => { x with phase := .requested }).handles[h]? =
                some { x with phase := .requested } := by
              simp [modifyHandle_handles, found]
            have same : (st.serve h).store =
                st.modifyHandle h fun x => { x with phase := .requested } := by
              simp [serve, request, found, dead, phase]
            refine ⟨by simp [serve, request, found, dead, phase],
              by simp [serve, request, found, dead, phase, alive], ?_, ?_⟩
            · rw [same, alive_of noted, alive_of found]
            · intro agenda
              rw [same, owned_of noted, owned_of found]
              rfl
        | _ => simp [serve, request, alive, found, dead, phase]

end Request

/-- What is alive as long as it is owned is not let go while it is. -/
theorem letGo_kept {st : Store α ε} {agenda : List (Task α ε)} {h : HandleRef}
    (kept : st.alive h = st.owned agenda h) : st.letGo agenda [h] = (st, []) := by
  simp [letGo, release, kept]

end Store

/-! ## Requests as steps -/

/-- What a step that asks says in all, with `called` for what comes of it. -/
def Store.said (st : Store α ε) (within : Option Nat) (h : HandleRef) (called : List (Event α ε))
    (ask : SubName × UInt64) : List (Event α ε) :=
  .performed within (.request ask.1 ask.2) :: (st.remarks h ask.2 ++ called) ++
    [.answered within (.request ask.1 ask.2) .done]

/-- Steps that ask, each by a name and an amount, one after the other. -/
def requests (within : Option Nat) (asks : List (SubName × UInt64)) : List (Task α ε) :=
  asks.map fun ask => .perform within (.request ask.1 ask.2)

theorem requests_append (within : Option Nat) (before after : List (SubName × UInt64)) :
    (requests within (before ++ after) : List (Task α ε)) =
      requests within before ++ requests within after := List.map_append

theorem requests_free (within : Option Nat) (asks : List (SubName × UInt64)) :
    ∀ t ∈ (requests within asks : List (Task α ε)), t.Free := by
  intro t member
  obtain ⟨ask, -, rfl⟩ := List.mem_map.1 member
  exact Task.free_perform within _

namespace Machine

variable {m : Machine α ε} {within : Option Nat} {h : HandleRef} {ask : SubName × UInt64}
  {asks : List (SubName × UInt64)} {st : Store α ε} {told : List (Event α ε)}

theorem perform_request (named : m.store.sub? within ask.1 = some h) :
    m.store.perform m.agenda within (.request ask.1 ask.2) =
      (m.store.request h ask.2, .reply .done) := by
  simp [Store.perform, Store.with?, named]

namespace ComesTo

/-- A call that was all there was to hold a handle is over, and nothing comes of it. -/
theorem letsGo (kept : m.store.alive h = m.store.owned m.agenda h) :
    m.ComesTo (if m.store.alive h then [.letGo [h]] else []) m.store [] := by
  split
  · have effect : (Task.letGo [h]).effect m.store m.agenda = ⟨m.store, [], []⟩ := by
      simp only [Task.effect, Store.letGo_kept kept]
    exact first effect (.nothing _)
  · exact .nothing m

/-- A request that is refused, or comes too late, comes to nothing. -/
theorem still (kept : m.store.alive h = m.store.owned m.agenda h)
    (named : m.store.sub? within ask.1 = some h) (quiet : ask.2 = 0 ∨ m.store.Deaf h) :
    m.ComesTo (requests within [ask]) m.store (m.store.said within h [] ask) := by
  have performs := perform_request named
  rw [Store.request_still quiet] at performs
  exact performed performs (letsGo (m := m.undergo ⟨m.store, m.store.remarks h ask.2, []⟩) kept)

/-- So do any number of them. -/
theorem stills (kept : m.store.alive h = m.store.owned m.agenda h)
    (named : ∀ ask ∈ asks, m.store.sub? within ask.1 = some h)
    (quiet : ∀ ask ∈ asks, ask.2 = 0 ∨ m.store.Deaf h) :
    m.ComesTo (requests within asks) m.store (asks.flatMap (m.store.said within h [])) := by
  induction asks generalizing m with
  | nil => exact .nothing m
  | cons ask asks ih =>
      have now := still kept (named ask List.mem_cons_self) (quiet ask List.mem_cons_self)
      have later := ih (m := m.undergo ⟨m.store, m.store.said within h [] ask, []⟩) kept
        (fun ask member => named ask (List.mem_cons_of_mem _ member))
        fun ask member => quiet ask (List.mem_cons_of_mem _ member)
      exact now.append later (requests_free within asks)

end ComesTo

/-! ## What every run keeps -/

/-- What every run keeps, where no callback is about to start: there a step can stand. -/
structure Ready (m : Machine α ε) : Prop where
  sound : Sound m
  calm : m.Calm
  tended : Tended m
  filed : m.Filed

namespace Ready

/-- Requests can be made. -/
theorem asking (ready : m.Ready) (within : Option Nat) (asks : List (SubName × UInt64)) :
    (m.undergo ⟨m.store, [], requests within asks⟩).Ready := by
  have steps : ∀ t ∈ (requests within asks : List (Task α ε)),
      ∃ step, t = .perform within step := by
    intro t member
    obtain ⟨ask, -, rfl⟩ := List.mem_map.1 member
    exact ⟨_, rfl⟩
  have left : ∀ t ∈ (requests within asks : List (Task α ε)), t.isAside = true := by
    intro t member
    obtain ⟨step, rfl⟩ := steps t member
    rfl
  have told : ∀ event ∈ ([] : List (Event α ε)), event.isAside = true := by simp
  obtain ⟨sound, calm⟩ := ready.sound.toSoundBut.aside ready.calm told left
  refine ⟨sound.rest calm, calm, ?_, ready.filed.store, ?_⟩
  · refine ready.tended.aside told left fun s => List.any_eq_false.2 fun t member => ?_
    obtain ⟨step, rfl⟩ := steps t member
    simp [Task.refersTo]
  · intro t member k g fills
    rcases List.mem_append.1 member with new | old
    · obtain ⟨step, rfl⟩ := steps t new
      cases fills
    · exact ready.filed.due t old k g fills

/-- When they are over, more can be made. -/
theorem asked (ready : m.Ready) (comes : m.ComesTo (requests within asks) st told) :
    (m.undergo ⟨st, told, []⟩).Ready := by
  obtain ⟨n, reached⟩ := comes.reached
  have start := ready.asking within asks
  exact ⟨reached ▸ start.sound.steps n, ready.calm, reached ▸ start.tended.steps start.sound n,
    reached ▸ start.filed.steps n⟩

/-- Names stay. -/
theorem named (ready : m.Ready) (comes : m.ComesTo (requests within asks) st told)
    {within' : Option Nat} {name : SubName} (named : m.store.sub? within' name = some h) :
    st.sub? within' name = some h := by
  obtain ⟨n, reached⟩ := comes.reached
  have kept := (ready.asking within asks).filed.named_steps named n
  rw [reached] at kept
  exact kept

end Ready

end Machine

/-! ## The first positive amount -/

namespace Sound

variable {m : Machine α ε} {h : HandleRef}

/-- A handle that was asked waits for demand no longer. -/
theorem past_demand (sound : Sound m) {n : UInt64} (positive : n ≠ 0)
    (asked : .requesting h n ∈ m.history) :
    m.store.phase h ≠ .idle ∧ m.store.phase h ≠ .parked := by
  have demand := Ledger.asked_iff.2 ⟨n, positive, asked⟩
  cases found : m.store.handles[h]? with
  | none =>
      rw [(sound.unborn h found).2] at demand
      cases demand
  | some x =>
      have phase := (sound.standing h x (by simp) found).phase
      rw [demand] at phase
      rw [Store.phase_of found, phase]
      cases (Ledger.of h m.history).renounced <;>
        cases (Ledger.of h m.history).offers.any Outcome.isValue <;> simp [Phase.of]

/-- A handle that is parked holds a value. -/
theorem parks (sound : Sound m) (parked : m.store.phase h = .parked) : ∃ v, m.store.Parks h v := by
  cases found : m.store.handles[h]? with
  | none => simp [Store.phase, found] at parked
  | some x =>
      rw [Store.phase_of found] at parked
      have stands := sound.standing h x (by simp) found
      obtain ⟨v, slot⟩ := stands.parked_iff.1 parked
      exact ⟨v, x, found, parked, slot, by rw [stands.keepAlive, parked]; rfl⟩

end Sound

theorem Store.Parks.phase {st : Store α ε} {h : HandleRef} {v : α} (parks : st.Parks h v) :
    st.phase h = .parked := by
  obtain ⟨x, found, parked, -⟩ := parks
  rw [Store.phase_of found, parked]

/-- A parked value is alive: it keeps its handle. -/
theorem Tended.alive_of_parks {m : Machine α ε} (tended : Tended m) {h : HandleRef} {v : α}
    (parks : m.store.Parks h v) : m.store.alive h = true := by
  obtain ⟨x, found, -, -, kept⟩ := parks
  rw [tended.kept h, Store.owned_of found, kept]
  rfl

namespace Machine

variable {m : Machine α ε} {h : HandleRef}

/-- What comes of the first positive amount: `st` is made and `called` is said, by whatever name
and with whatever amount it is asked. -/
structure Serves (m : Machine α ε) (h : HandleRef) (st : Store α ε) (called : List (Event α ε)) :
    Prop where
  comes : ∀ within (ask : SubName × UInt64), m.store.sub? within ask.1 = some h → ask.2 ≠ 0 →
    m.ComesTo (requests within [ask]) st (m.store.said within h called ask)
  deaf : st.Deaf h
  emits : ∀ v, m.store.Parks h v →
    ∃ more, called = .noticed (.demandMet h) :: .began h (.next v) :: more
  mute : (∀ v, ¬ m.store.Parks h v) → called = []

/-- The machine in the midst of a call that asks for one: the amount is noted, and what comes of
it is not yet done. -/
def noted (m : Machine α ε) (h : HandleRef) : Machine α ε :=
  m.undergo ⟨(m.store.serve h).store, m.store.remarks h 1 ++ (m.store.serve h).events, []⟩

namespace Ready

theorem serving (ready : m.Ready) (h : HandleRef) :
    Sound ((m.noted h).undergo ⟨(m.noted h).store, [], (m.store.serve h).tasks⟩) := by
  have asked := ready.sound.toSoundBut.request ready.calm h 1
  rw [Store.request_positive (by decide)] at asked
  exact asked

/-- What the amount comes to by itself, it comes to as a step. -/
theorem serves_of {st : Store α ε} {more : List (Event α ε)}
    (comes : (m.noted h).ComesTo (m.store.serve h).tasks st more)
    (within : Option Nat) (ask : SubName × UInt64) (named : m.store.sub? within ask.1 = some h)
    (positive : ask.2 ≠ 0) :
    m.ComesTo (requests within [ask]) st
      (m.store.said within h ((m.store.serve h).events ++ more) ask) := by
  have performs := perform_request (m := m) named
  rw [Store.request_positive positive] at performs
  have whole := ComesTo.performed performs (comes.elsewhere rfl (.refl _))
  rw [Effect.after, List.append_assoc] at whole
  exact whole

/-- Who was asked while it was alive is deaf when all is over. -/
theorem deafens (ready : m.Ready) {st : Store α ε} {more : List (Event α ε)}
    (comes : (m.noted h).ComesTo (m.store.serve h).tasks st more)
    (lived : st.alive h = true → m.store.alive h = true) : st.Deaf h := by
  intro alive
  obtain ⟨n, reached⟩ := comes.reached
  have sound := (ready.serving h).steps n
  rw [reached] at sound
  refine sound.past_demand (n := 1) (by decide) ?_
  simp [noted, Store.remarks, lived alive]

/-- A parked value is emitted, and its consumer does what it likes. -/
theorem serves_parked (ready : m.Ready) {v : α} (parks : m.store.Parks h v) :
    ∃ st called, m.Serves h st called := by
  have alive := ready.tended.alive_of_parks parks
  obtain ⟨x, found, phase, slot, -⟩ := id parks
  have on : x.released = false := by simpa [Store.alive_of found] using alive
  obtain ⟨st, more, comes⟩ := Machine.comes (ready.serving h)
  refine ⟨st, _, serves_of comes, ready.deafens comes fun _ => alive, ?_, ?_⟩
  · rintro w ⟨y, at_, -, slot', -⟩
    rw [found] at at_
    cases at_
    rw [slot] at slot'
    cases slot'
    have serve := Store.serve_parked found on phase slot
    have there : (m.noted h).store.handles[h]? =
        some { x with phase := .served, parked := none, keepAlive := false } := by
      simp [noted, serve, Store.modifyHandle_handles, found]
    rw [serve] at comes ⊢
    obtain ⟨later, told⟩ := comes.opening
    rw [Task.effect, Store.notify_eq there] at told
    exact ⟨_, congrArg (List.cons _) told⟩
  · intro empty
    exact absurd parks (empty v)

/-- Without a parked value nothing is emitted. -/
theorem serves_unparked (ready : m.Ready) (unparked : m.store.phase h ≠ .parked) :
    ∃ st called, m.Serves h st called := by
  obtain ⟨silent, tasks, alive, owned⟩ := Store.serve_unparked unparked
  have comes : (m.noted h).ComesTo (m.store.serve h).tasks (m.noted h).store [] := by
    rw [tasks, ← alive]
    refine ComesTo.letsGo ?_
    rw [noted, undergo_store, alive, owned]
    exact ready.tended.kept h
  refine ⟨_, _, serves_of comes, ready.deafens comes fun on => alive ▸ on, ?_, ?_⟩
  · intro v parks
    exact absurd parks.phase unparked
  · intro _
    rw [silent, List.append_nil]

/-- **The first positive amount serves the handle**, and leaves it deaf. -/
theorem serves (ready : m.Ready) (h : HandleRef) : ∃ st called, m.Serves h st called := by
  by_cases parked : m.store.phase h = .parked
  · obtain ⟨v, parks⟩ := ready.sound.parks parked
    exact ready.serves_parked parks
  · exact ready.serves_unparked parked

/-- Nothing is parked on a handle whose value was emitted, whose sink has ended without one, or
that was cancelled or released. -/
theorem of_parks (ready : m.Ready) {v : α} (parks : m.store.Parks h v) :
    (∀ w, .began h (.next w) ∉ m.history) ∧
      (∀ s o, .subscribing s h ∈ m.history → .terminating s o true ∈ m.history → o = .value v) ∧
      .cancelling h ∉ m.history ∧ .dropped h ∉ m.history := by
  have alive := ready.tended.alive_of_parks parks
  obtain ⟨x, found, parked, slot, -⟩ := parks
  have stands := ready.sound.standing h x (by simp) found
  obtain ⟨w, slot', closed, -, kept, -, heard, -⟩ := stands.of_parked parked
  obtain rfl : v = w := by simpa [slot] using slot'
  refine ⟨?_, ?_, ?_, ?_⟩
  · intro w began
    have member : .began h (.next w) ∈ (Ledger.of h m.history).callbacks :=
      List.mem_filter.2 ⟨began, by simp [Event.isCallback]⟩
    rw [heard] at member
    simp [inTurn] at member
  · intro s o made ended
    obtain rfl := (ready.sound.subscribed_iff found).1 made
    have frozen := Registry.outcome?_eq_some.1 (Registry.place_eq_closed.1 closed)
    exact (ready.sound.eq_of_ended frozen ended).symm
  · intro gone
    rw [Ledger.renounced_iff.2 gone] at kept
    cases kept
  · exact ready.tended.kept_of_alive alive

/-- **What any list of requests comes to**, of which one is positive. -/
theorem serves_once (ready : m.Ready) {within : Option Nat} {st : Store α ε}
    {called : List (Event α ε)} (serves : m.Serves h st called)
    {before after : List (SubName × UInt64)} {ask : SubName × UInt64}
    (named : ∀ ask' ∈ before ++ ask :: after, m.store.sub? within ask'.1 = some h)
    (zero : ∀ ask' ∈ before, ask'.2 = 0) (positive : ask.2 ≠ 0) :
    m.ComesTo (requests within (before ++ ask :: after)) st
      (before.flatMap (m.store.said within h []) ++ m.store.said within h called ask ++
        after.flatMap (st.said within h [])) := by
  have early : m.ComesTo (requests within before) m.store
      (before.flatMap (m.store.said within h [])) :=
    .stills (ready.tended.kept h) (fun ask' member => named ask' (List.mem_append_left _ member))
      fun ask' member => .inl (zero ask' member)
  have here := serves.comes within ask (named ask (by simp)) positive
  have both := early.append (here.elsewhere rfl (.refl _)) (requests_free within [ask])
  rw [← requests_append] at both
  generalize before.flatMap (m.store.said within h []) ++ m.store.said within h called ask = told
    at both ⊢
  -- the names are as good as before, and the handle is deaf
  have late : (m.undergo ⟨st, told, []⟩).ComesTo (requests within after) st
      (after.flatMap (st.said within h [])) :=
    .stills ((ready.asked both).tended.kept h)
      (fun ask' member => ready.named both (named ask' (by simp [member])))
      fun ask' _ => .inr serves.deaf
  have whole := both.append late (requests_free within after)
  rw [← requests_append, List.append_assoc] at whole
  exact whole

end Ready

/-- Where a step is next, no callback is about to start. -/
theorem calm_of_perform (sound : Sound m) {within : Option Nat} {step : Step α ε}
    {rest : List (Task α ε)} (turn : m.agenda = .perform within step :: rest) : m.Calm := by
  have later := sound.turn
  intro t member
  rw [turn] at member later
  rcases List.mem_cons.1 member with rfl | behind
  · rfl
  · exact later t behind

end Machine

/-- **Demand is a latch.**

At every moment of every run at which a step can stand, take any list of requests on one
handle, by whatever names the handle has there, to be made in front of all that is left to do.
If every amount is zero, they leave the store as it is and call nobody.  Otherwise they make
of the store what `request 1` alone would make of it, and all that is called is called in its
course, in the place of the first positive amount; what is refused before it, and what comes
after it, calls nobody.

What comes of that one request begins with the parked value, if there is one; otherwise it is
nothing.  There is none on a handle whose value was emitted, whose sink has ended without a
value, or that was cancelled or released. -/
theorem demand_is_latch (script : List (Step α ε)) (n : Nat) (within : Option Nat) (h : HandleRef)
    (calm : ((Machine.load script).steps n).Calm) :
    let m := (Machine.load script).steps n
    ∃ st called,
      (∀ name, m.store.sub? within name = some h →
        m.ComesTo (requests within [(name, 1)]) st (m.store.said within h called (name, 1))) ∧
      (∀ asks : List (SubName × UInt64),
        (∀ ask ∈ asks, m.store.sub? within ask.1 = some h) →
        ((∀ ask ∈ asks, ask.2 = 0) →
          m.ComesTo (requests within asks) m.store (asks.flatMap (m.store.said within h []))) ∧
        ∀ before ask after, asks = before ++ ask :: after → (∀ ask' ∈ before, ask'.2 = 0) →
          ask.2 ≠ 0 →
          m.ComesTo (requests within asks) st
            (before.flatMap (m.store.said within h []) ++ m.store.said within h called ask ++
              after.flatMap (st.said within h []))) ∧
      (∀ v, m.store.Parks h v →
        ∃ more, called = .noticed (.demandMet h) :: .began h (.next v) :: more) ∧
      ((∀ v, ¬ m.store.Parks h v) → called = []) ∧
      ((∃ v, .began h (.next v) ∈ m.history) ∨
          (∃ s o, .subscribing s h ∈ m.history ∧ .terminating s o true ∈ m.history ∧
            o.isValue = false) ∨
          .cancelling h ∈ m.history ∨ .dropped h ∈ m.history →
        called = []) := by
  intro m
  have ready : m.Ready := ⟨Machine.steps_sound script n, calm, Machine.steps_tended script n,
    Machine.steps_filed script n⟩
  obtain ⟨st, called, serves⟩ := ready.serves h
  refine ⟨st, called, ?_, ?_, serves.emits, serves.mute, ?_⟩
  · intro name named
    exact serves.comes within (name, 1) named (by decide : (1 : UInt64) ≠ 0)
  · intro asks named
    refine ⟨?_, ?_⟩
    · intro zero
      exact .stills (ready.tended.kept h) named fun ask member => .inl (zero ask member)
    · rintro before ask after rfl zero positive
      exact ready.serves_once serves named zero positive
  · intro spent
    refine serves.mute ?_
    intro v parks
    obtain ⟨unheard, valued, kept, held⟩ := ready.of_parks parks
    rcases spent with ⟨w, began⟩ | ⟨s, o, made, ended, empty⟩ | gone | dropped
    · exact unheard w began
    · rw [valued s o made ended] at empty
      cases empty
    · exact kept gone
    · exact held dropped

/-- A value is parked.  In its acknowledgment another consumer asks for it: for nothing, for
three by a clone, for nine; the consumer asks again when it is called, and cancels. -/
theorem demand_is_latch_within :
    let script : List (Step Nat Nat) :=
      [.newSink none, .subscribe 0 [] [.request .own 5, .cancel .own] [] [], .cloneSub (.slot 0),
        .succeed 0 (some 7), .newSink none, .subscribe 1 [.unknown "here"] [] [] []]
    let m := (Machine.load script).steps 19
    let asks : List (SubName × UInt64) := [(.slot 0, 0), (.slot 1, 3), (.slot 0, 9)]
    m.Calm ∧ m.store.Parks 0 7 ∧ (∀ ask ∈ asks, m.store.sub? (some 2) ask.1 = some 0) ∧
      ∃ st more,
        m.ComesTo (requests (some 2) [(.slot 0, 1)]) st
          (m.store.said (some 2) 0 (.noticed (.demandMet 0) :: .began 0 (.next 7) :: more)
            (.slot 0, 1)) ∧
        m.ComesTo (requests (some 2) asks) st
          (m.store.said (some 2) 0 [] (.slot 0, 0) ++
            m.store.said (some 2) 0 (.noticed (.demandMet 0) :: .began 0 (.next 7) :: more)
              (.slot 1, 3) ++ st.said (some 2) 0 [] (.slot 0, 9)) := by
  intro script m asks
  have sound : Sound m := Machine.steps_sound script 19
  have hand : m.inHand.isSome = true := by decide +kernel
  obtain ⟨⟨within, step⟩, hand⟩ := Option.isSome_iff_exists.1 hand
  obtain ⟨rest, turn⟩ := Machine.inHand_eq_some.1 hand
  have calm : m.Calm := Machine.calm_of_perform sound turn
  have named : ∀ ask ∈ asks, m.store.sub? (some 2) ask.1 = some 0 := by decide +kernel
  have slot : m.store.handles[0]?.bind Handle.parked = some (.value 7) := by decide +kernel
  obtain ⟨v, parks⟩ := sound.parks (h := 0) (by decide +kernel)
  obtain rfl : v = 7 := by
    obtain ⟨x, found, -, at_, -⟩ := parks
    rw [found, Option.bind_some, at_] at slot
    cases slot
    rfl
  obtain ⟨st, called, one, some_, emits, -⟩ := demand_is_latch script 19 (some 2) 0 calm
  obtain ⟨more, rfl⟩ := emits 7 parks
  have first := one (.slot 0) (named (.slot 0, 0) List.mem_cons_self)
  have all := (some_ asks named).2 [(.slot 0, 0)] (.slot 1, 3) [(.slot 0, 9)] rfl (by simp)
    (by decide)
  simp only [List.flatMap_cons, List.flatMap_nil, List.append_nil] at all
  exact ⟨calm, parks, named, st, more, first, all⟩

end OneShot
