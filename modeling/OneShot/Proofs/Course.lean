/-
# OneShot.Proofs.Course -- the course of one handle

What one handle has heard and what is about to happen to it are tied together by
`Course`: a handle is summoned, greeted, waits in the registry or is offered the
outcome at once, is told the outcome signal by signal, or leaves that course because it
was cancelled.  At every point at most one task is pending for it, and `Course` says
which.

`Standing` adds what the handle itself remembers.  Its phase is exactly demand, value and
cancellation as the ledger has them (`Phase.of`); a parked outcome and the mark that keeps
the handle alive go with the phase `parked` and with no other.

Everything here is about one handle.  There is one lemma for each thing that can happen to
it: it is asked, cancelled, its sink ends, it is offered the outcome, a callback begins or
ends.
-/
import OneShot.Proofs.Deed

namespace OneShot

set_option autoImplicit false

variable {α ε : Type}

/-! ## Outcomes and places -/

namespace Outcome

/-- All that a consumer hears of a sink that ends so. -/
def signals : Outcome α ε → List (Signal α ε)
  | value v => [.subscribed, .next v, .complete]
  | empty => [.subscribed, .complete]
  | error e => [.subscribed, .error e]

/-- A value waits for demand; completion and errors do not. -/
def isValue : Outcome α ε → Bool
  | value _ => true
  | _ => false

theorem isValue_iff {o : Outcome α ε} : o.isValue = true ↔ ∃ v, o = .value v := by
  cases o <;> simp [isValue]

theorem subscribed_prefix (o : Outcome α ε) : [.subscribed] <+: o.signals := by
  cases o <;> simp [signals]

/-- Past the acknowledgment, what is left to hear is all of it, or the completion that
follows a value. -/
theorem signals_split {o : Outcome α ε} {told later : List (Signal α ε)} {signal : Signal α ε}
    (script : o.signals = told ++ signal :: later) (begun : told ≠ []) :
    (∃ v, o = .value v ∧ told = [.subscribed] ∧ signal = .next v ∧ later = [.complete]) ∨
      (∃ v, o = .value v ∧ told = [.subscribed, .next v] ∧ signal = .complete ∧ later = []) ∨
      (o = .empty ∧ told = [.subscribed] ∧ signal = .complete ∧ later = []) ∨
      (∃ e, o = .error e ∧ told = [.subscribed] ∧ signal = .error e ∧ later = []) := by
  obtain ⟨first, told, rfl⟩ := List.exists_cons_of_ne_nil begun
  cases o <;> rcases told with _ | ⟨second, _ | ⟨third, told⟩⟩ <;> simp_all [signals]

end Outcome

/-- Where a handle is with its sink: not in the registry, in it, or behind its end. -/
inductive Place (α ε : Type)
  | apart
  | waiting
  | closed (outcome : Outcome α ε)

def Registry.place (h : HandleRef) : Registry α ε → Place α ε
  | live handles => if h ∈ handles then .waiting else .apart
  | frozen outcome => .closed outcome

/-- Cancellation takes a handle out of the registry. -/
def Place.leave : Place α ε → Place α ε
  | waiting => apart
  | p => p

theorem Place.leave_ne_waiting (p : Place α ε) : p.leave ≠ .waiting := by
  cases p <;> simp [leave]

/-! ## Callbacks in turn -/

theorem inTurn_append (h : HandleRef) (a b : List (Signal α ε)) :
    inTurn h (a ++ b) = inTurn h a ++ inTurn h b := by
  simp [inTurn]

theorem inTurn_snoc (h : HandleRef) (told : List (Signal α ε)) (signal : Signal α ε) :
    inTurn h (told ++ [signal]) = inTurn h told ++ [.began h signal] ++ [.ended h signal] := by
  simp [inTurn]

/-! ## The course -/

/-- How far a handle is, as what was offered to it, what its consumer has heard, and the
task that is pending for it. -/
inductive Course (h : HandleRef) (place : Place α ε) (asked renounced : Bool) :
    List (Outcome α ε) → List (Event α ε) → List (Task α ε) → Prop
  /-- Made; its acknowledgment is about to begin. -/
  | summoned (out : place ≠ .waiting) (fresh : asked = false) (kept : renounced = false) :
      Course h place asked renounced [] [] [.notify h .subscribed]
  | greeting (out : place ≠ .waiting) :
      Course h place asked renounced [] [.began h .subscribed] [.finish h .subscribed]
  | waiting (here : place = .waiting) (kept : renounced = false) :
      Course h place asked renounced [] (inTurn h [.subscribed]) []
  /-- Cancelled before its sink ended. -/
  | left (out : place ≠ .waiting) (gone : renounced = true) :
      Course h place asked renounced [] (inTurn h [.subscribed]) []
  | offered {o : Outcome α ε} (closed : place = .closed o) :
      Course h place asked renounced [] (inTurn h [.subscribed]) [.deliver h o]
  /-- Offered, and nothing was said: the handle is cancelled, or the value is parked. -/
  | withheld {o : Outcome α ε} (closed : place = .closed o)
      (why : renounced = true ∨ (o.isValue = true ∧ asked = false)) :
      Course h place asked renounced [o] (inTurn h [.subscribed]) []
  | due {o : Outcome α ε} {told later : List (Signal α ε)} {signal : Signal α ε}
      (closed : place = .closed o) (script : o.signals = told ++ signal :: later) (begun : told ≠ [])
      (fed : o.isValue = true → asked = true) (kept : renounced = false) :
      Course h place asked renounced [o] (inTurn h told) [.notify h signal]
  | hearing {o : Outcome α ε} {told later : List (Signal α ε)} {signal : Signal α ε}
      (closed : place = .closed o) (script : o.signals = told ++ signal :: later) (begun : told ≠ [])
      (fed : o.isValue = true → asked = true) :
      Course h place asked renounced [o] (inTurn h told ++ [.began h signal]) [.finish h signal]
  | told {o : Outcome α ε} (closed : place = .closed o) (fed : o.isValue = true → asked = true) :
      Course h place asked renounced [o] (inTurn h o.signals) []
  /-- Cancelled inside `next`, so that no completion follows. -/
  | broken {v : α} (closed : place = .closed (.value v)) (gone : renounced = true) :
      Course h place asked renounced [.value v] (inTurn h [.subscribed, .next v]) []

namespace Course

variable {h : HandleRef} {place : Place α ε} {asked renounced : Bool}
  {offers : List (Outcome α ε)} {heard : List (Event α ε)} {pending : List (Task α ε)}

/-- Positive demand that finds no value waiting changes nothing in what is to come. -/
theorem ask (course : Course h place asked renounced offers heard pending)
    (calm : ∀ t ∈ pending, t.isNotify = false)
    (fine : renounced = true ∨ offers.any Outcome.isValue = false) :
    Course h place true renounced offers heard pending := by
  cases course with
  | summoned | due => simp [Task.isNotify] at calm
  | greeting out => exact .greeting out
  | waiting here kept => exact .waiting here kept
  | left out gone => exact .left out gone
  | offered closed => exact .offered closed
  | withheld closed why =>
      refine .withheld closed (.inl ?_)
      rcases why with gone | ⟨value, -⟩
      · exact gone
      · simpa [value] using fine
  | hearing closed script begun fed => exact .hearing closed script begun fun _ => rfl
  | told closed fed => exact .told closed fun _ => rfl
  | broken closed gone => exact .broken closed gone

theorem renounce (course : Course h place asked renounced offers heard pending)
    (calm : ∀ t ∈ pending, t.isNotify = false) :
    Course h place.leave asked true offers heard pending := by
  have leaves := place.leave_ne_waiting
  cases course with
  | summoned | due => simp [Task.isNotify] at calm
  | greeting => exact .greeting leaves
  | waiting | left => exact .left leaves rfl
  | offered closed => exact .offered (by simp [closed, Place.leave])
  | withheld closed => exact .withheld (by simp [closed, Place.leave]) (.inl rfl)
  | hearing closed script begun fed =>
      exact .hearing (by simp [closed, Place.leave]) script begun fed
  | told closed fed => exact .told (by simp [closed, Place.leave]) fed
  | broken closed => exact .broken (by simp [closed, Place.leave]) rfl

/-- A handle outside the registry of a sink that ends goes on as before. -/
theorem pass_by (course : Course h .apart asked renounced offers heard pending) (o : Outcome α ε) :
    Course h (.closed o) asked renounced offers heard pending := by
  cases course with
  | summoned _ fresh kept => exact .summoned (by simp) fresh kept
  | greeting => exact .greeting (by simp)
  | left _ gone => exact .left (by simp) gone
  | waiting here => cases here
  | offered closed | withheld closed | due closed | hearing closed | told closed | broken closed => cases closed

theorem of_waiting (course : Course h .waiting asked renounced offers heard pending) :
    offers = [] ∧ heard = inTurn h [.subscribed] ∧ pending = [] := by
  cases course with
  | waiting => exact ⟨rfl, rfl, rfl⟩
  | summoned out | greeting out | left out => exact absurd rfl out
  | offered closed | withheld closed | due closed | hearing closed | told closed | broken closed => cases closed

theorem of_deliver {o : Outcome α ε}
    (course : Course h place asked renounced offers heard [.deliver h o]) :
    place = .closed o ∧ offers = [] ∧ heard = inTurn h [.subscribed] := by
  cases course with
  | offered closed => exact ⟨closed, rfl, rfl⟩

theorem of_offered {o : Outcome α ε}
    (course : Course h place asked renounced (o :: offers) heard pending) :
    offers = [] ∧ place = .closed o := by
  cases course with
  | withheld closed | due closed | hearing closed | told closed | broken closed => exact ⟨rfl, closed⟩

/-- No more than one task is ever pending for a handle. -/
theorem pending_of_cons {t : Task α ε} {rest : List (Task α ε)}
    (course : Course h place asked renounced offers heard (t :: rest)) : rest = [] := by
  cases course <;> rfl

/-- A parked value is all that waits for demand. -/
theorem of_parked {o : Outcome α ε} (course : Course h place false false [o] heard pending)
    (value : o.isValue = true) : heard = inTurn h [.subscribed] ∧ pending = [] := by
  cases course with
  | withheld => exact ⟨rfl, rfl⟩
  | due _ _ _ fed | hearing _ _ _ fed | told _ fed => cases fed value
  | broken _ gone => cases gone

theorem begins {signal : Signal α ε}
    (course : Course h place asked renounced offers heard [.notify h signal]) :
    renounced = false ∧
      Course h place asked renounced offers (heard ++ [.began h signal]) [.finish h signal] := by
  cases course with
  | summoned out _ kept => exact ⟨kept, .greeting out⟩
  | due closed script begun fed kept => exact ⟨kept, .hearing closed script begun fed⟩

/-- When the acknowledgment is over, a handle joins the registry or hears the outcome. -/
theorem acknowledged
    (course : Course h place asked renounced offers heard [.finish h .subscribed]) :
    place ≠ .waiting ∧ offers = [] ∧ heard ++ [.ended h .subscribed] = inTurn h [.subscribed] := by
  cases course with
  | greeting out => exact ⟨out, rfl, rfl⟩
  | hearing closed script begun =>
      rcases Outcome.signals_split script begun with
        ⟨_, _, _, impossible, _⟩ | ⟨_, _, _, impossible, _⟩ | ⟨_, _, impossible, _⟩ |
        ⟨_, _, _, impossible, _⟩ <;> cases impossible

theorem next_ends {v : α}
    (course : Course h place asked renounced offers heard [.finish h (.next v)]) :
    (renounced = true → Course h place asked renounced offers (heard ++ [.ended h (.next v)]) []) ∧
      (renounced = false →
        Course h place asked renounced offers (heard ++ [.ended h (.next v)])
          [.notify h .complete]) := by
  cases course with
  | hearing closed script begun fed =>
      rcases Outcome.signals_split script begun with
        ⟨w, rfl, rfl, same, rfl⟩ | ⟨_, _, _, impossible, _⟩ | ⟨_, _, impossible, _⟩ |
        ⟨_, _, _, impossible, _⟩
      · cases same
        rw [← inTurn_snoc]
        exact ⟨fun gone => .broken closed gone,
          fun kept => .due closed rfl (by simp) fed kept⟩
      all_goals cases impossible

theorem last_ends {signal : Signal α ε} (last : signal.isTerminal = true)
    (course : Course h place asked renounced offers heard [.finish h signal]) :
    Course h place asked renounced offers (heard ++ [.ended h signal]) [] := by
  cases course with
  | greeting => simp [Signal.isTerminal] at last
  | @hearing o _ _ _ closed script begun fed =>
      have whole : Course h place asked renounced [o] (inTurn h o.signals) [] := .told closed fed
      rcases Outcome.signals_split script begun with
        ⟨_, _, _, rfl, _⟩ | ⟨v, rfl, rfl, rfl, rfl⟩ | ⟨rfl, rfl, rfl, rfl⟩ | ⟨e, rfl, rfl, rfl, rfl⟩
      · simp [Signal.isTerminal] at last
      all_goals
        rw [script, inTurn_snoc] at whole
        exact whole

end Course

/-! ## What a handle remembers -/

/-- The phase of a handle, from whether it was cancelled, asked, and offered a value. -/
def Phase.of (renounced asked valued : Bool) : Phase :=
  if renounced then .cancelled
  else
    match asked, valued with
    | false, false => .idle
    | true, false => .requested
    | false, true => .parked
    | true, true => .served

theorem Phase.of_eq_cancelled {renounced asked valued : Bool} :
    Phase.of renounced asked valued = .cancelled ↔ renounced = true := by
  cases renounced <;> cases asked <;> cases valued <;> simp [Phase.of]

theorem Phase.of_kept (asked valued : Bool) :
    (Phase.of false asked valued).hasDemand = asked ∧
      (Phase.of false asked valued).hasValue = valued := by
  cases asked <;> cases valued <;> exact ⟨rfl, rfl⟩

namespace Handle

/-- A handle after its first demand. -/
def ask (x : Handle α ε) : Handle α ε := { x with phase := .requested }

/-- A handle after its parked value has been handed out. -/
def serve (x : Handle α ε) : Handle α ε :=
  { x with phase := .served, parked := none, keepAlive := false }

/-- A handle that had demand, after the value has been handed out. -/
def feed (x : Handle α ε) : Handle α ε := { x with phase := .served }

/-- A handle that had no demand, after the value has been put away. -/
def park (v : α) (x : Handle α ε) : Handle α ε :=
  { x with phase := .parked, parked := some (.value v), keepAlive := true }

/-- A handle after its cancellation. -/
def silence (x : Handle α ε) : Handle α ε :=
  { x with phase := .cancelled, parked := none, keepAlive := false }

end Handle

/-- What a handle remembers agrees with its ledger, and it is somewhere on its course. -/
structure Standing (h : HandleRef) (x : Handle α ε) (place : Place α ε) (l : Ledger α ε)
    (pending : List (Task α ε)) : Prop where
  phase : x.phase = .of l.renounced l.asked (l.offers.any Outcome.isValue)
  parked : x.parked = if x.phase = .parked then l.offers.head? else none
  keepAlive : x.keepAlive = (x.phase == .parked)
  course : Course h place l.asked l.renounced l.offers l.callbacks pending

namespace Standing

variable {h : HandleRef} {x : Handle α ε} {place : Place α ε} {l : Ledger α ε}
  {pending : List (Task α ε)}

theorem new (s : SinkRef) (id : HandleId) (consumer : Consumer α ε) (out : place ≠ .waiting) :
    Standing h (Handle.new s id consumer) place .empty [.notify h .subscribed] :=
  ⟨rfl, rfl, rfl, .summoned out rfl rfl⟩

theorem renounced_iff (stands : Standing h x place l pending) :
    l.renounced = true ↔ x.phase = .cancelled := by
  rw [stands.phase, Phase.of_eq_cancelled]

theorem kept (stands : Standing h x place l pending) (on : x.phase ≠ .cancelled) :
    l.renounced = false := by
  simpa using mt stands.renounced_iff.1 on

/-- Until it is cancelled, the phase of a handle tells demand and value. -/
theorem reads (stands : Standing h x place l pending) (on : x.phase ≠ .cancelled) :
    l.asked = x.phase.hasDemand ∧ l.offers.any Outcome.isValue = x.phase.hasValue := by
  have told := Phase.of_kept l.asked (l.offers.any Outcome.isValue)
  rw [stands.phase, stands.kept on]
  exact ⟨told.1.symm, told.2.symm⟩

/-- The two slots of a handle that holds no parked value are empty. -/
theorem unparked (stands : Standing h x place l pending) (other : x.phase ≠ .parked) :
    x.parked = none ∧ x.keepAlive = false := by
  rw [stands.parked, stands.keepAlive]
  simp [other]

/-! ### Demand -/

theorem ask_idle (stands : Standing h x place l pending) (calm : ∀ t ∈ pending, t.isNotify = false)
    (idle : x.phase = .idle) :
    Standing h x.ask place { l with asked := true } pending := by
  have on : x.phase ≠ .cancelled := by simp [idle]
  have kept := stands.kept on
  have valued : l.offers.any Outcome.isValue = false := by
    rw [(stands.reads on).2, idle]; rfl
  obtain ⟨empty, free⟩ := stands.unparked (by simp [idle])
  refine ⟨?_, by simpa [Handle.ask] using empty, free, stands.course.ask calm (.inr valued)⟩
  simp [Handle.ask, kept, valued, Phase.of]

/-- A handle that holds a parked value has heard its acknowledgment and nothing more. -/
theorem of_parked (stands : Standing h x place l pending) (parked : x.phase = .parked) :
    ∃ v, x.parked = some (.value v) ∧ place = .closed (.value v) ∧ l.asked = false ∧
      l.renounced = false ∧ l.offers = [.value v] ∧ l.callbacks = inTurn h [.subscribed] ∧
      pending = [] := by
  have on : x.phase ≠ .cancelled := by simp [parked]
  have kept := stands.kept on
  obtain ⟨asked, valued⟩ := stands.reads on
  rw [parked] at asked valued
  obtain ⟨o, offered, value⟩ := List.any_eq_true.1 valued
  have course := stands.course
  have slot := stands.parked
  rw [if_pos parked] at slot
  rw [asked, kept] at course
  cases offers : l.offers with
  | nil => simp [offers] at offered
  | cons o' rest =>
      rw [offers] at course
      obtain ⟨rfl, closed⟩ := course.of_offered
      obtain rfl : o = o' := by simpa [offers] using offered
      obtain ⟨heard, none_⟩ := course.of_parked value
      obtain ⟨v, rfl⟩ := Outcome.isValue_iff.1 value
      exact ⟨v, by simpa [offers] using slot, closed, asked, kept, rfl, heard, none_⟩

/-- A handle is parked if there is a value in its slot. -/
theorem parked_iff (stands : Standing h x place l pending) :
    x.phase = .parked ↔ ∃ v, x.parked = some (.value v) := by
  constructor
  · intro parked
    obtain ⟨v, slot, -⟩ := stands.of_parked parked
    exact ⟨v, slot⟩
  · rintro ⟨v, slot⟩
    by_cases parked : x.phase = .parked
    · exact parked
    · rw [(stands.unparked parked).1] at slot
      cases slot

theorem ask_parked (stands : Standing h x place l pending) (parked : x.phase = .parked) :
    ∃ v, x.parked = some (.value v) ∧ pending = [] ∧
      Standing h x.serve place { l with asked := true } [.notify h (.next v)] := by
  obtain ⟨v, slot, closed, -, kept, offers, heard, none_⟩ := stands.of_parked parked
  refine ⟨v, slot, none_, ?_, rfl, rfl, ?_⟩
  · simp [Handle.serve, kept, offers, Outcome.isValue, Phase.of]
  · simp only [offers, heard]
    exact .due closed rfl (by simp) (fun _ => rfl) kept

theorem ask_again (stands : Standing h x place l pending)
    (calm : ∀ t ∈ pending, t.isNotify = false) (idle : x.phase ≠ .idle)
    (parked : x.phase ≠ .parked) : Standing h x place { l with asked := true } pending := by
  by_cases gone : x.phase = .cancelled
  · have renounced := stands.renounced_iff.2 gone
    refine ⟨?_, stands.parked, stands.keepAlive, stands.course.ask calm (.inl renounced)⟩
    simp [gone, renounced, Phase.of]
  · have demand : x.phase.hasDemand = true := by
      cases phase : x.phase <;> simp_all [Phase.hasDemand]
    have already : { l with asked := true } = l := by
      rw [← demand, ← (stands.reads gone).1]
    rw [already]
    exact stands

/-! ### Cancellation -/

theorem renounce (stands : Standing h x place l pending)
    (calm : ∀ t ∈ pending, t.isNotify = false) :
    Standing h x.silence place.leave { l with renounced := true } pending :=
  ⟨by simp [Phase.of, Handle.silence], rfl, rfl, stands.course.renounce calm⟩

/-! ### The offer -/

section Offer

variable {o : Outcome α ε}

theorem offer_cancelled (stands : Standing h x place l [.deliver h o])
    (gone : x.phase = .cancelled) : Standing h x place { l with offers := [o] } [] := by
  obtain ⟨closed, -, heard⟩ := stands.course.of_deliver
  have renounced := stands.renounced_iff.2 gone
  obtain ⟨empty, free⟩ := stands.unparked (by simp [gone])
  refine ⟨by simp [gone, renounced, Phase.of], by simp [empty, gone], by simp [free, gone], ?_⟩
  rw [heard]
  exact .withheld closed (.inl renounced)

/-- A handle is offered an outcome before it knows of any value. -/
theorem offer_fresh (stands : Standing h x place l [.deliver h o]) :
    x.phase.hasValue = false := by
  obtain ⟨-, none_, -⟩ := stands.course.of_deliver
  by_cases gone : x.phase = .cancelled
  · rw [gone]; rfl
  · rw [← (stands.reads gone).2, none_]; rfl

/-- Completion and errors are told at once. -/
theorem offer_signal (stands : Standing h x place l [.deliver h o]) (on : x.phase ≠ .cancelled)
    {signal : Signal α ε} (script : o.signals = [.subscribed, signal]) :
    Standing h x place { l with offers := [o] } [.notify h signal] := by
  obtain ⟨closed, none_, heard⟩ := stands.course.of_deliver
  have unvalued : o.isValue = false := by
    cases o with
    | value v => simp [Outcome.signals] at script
    | empty | error => rfl
  have fresh := stands.offer_fresh
  obtain ⟨empty, free⟩ := stands.unparked (by rintro parked; rw [parked] at fresh; cases fresh)
  refine ⟨?_, ?_, ?_, ?_⟩
  · rw [stands.phase, none_]
    simp [unvalued]
  · rw [empty, eq_comm, if_neg]
    rintro parked; rw [parked] at fresh; cases fresh
  · exact stands.keepAlive
  · rw [heard]
    exact .due closed script (by simp) (by simp [unvalued]) (stands.kept on)

theorem offer_requested {v : α} (stands : Standing h x place l [.deliver h (.value v)])
    (requested : x.phase = .requested) :
    Standing h x.feed place { l with offers := [.value v] } [.notify h (.next v)] := by
  obtain ⟨closed, -, heard⟩ := stands.course.of_deliver
  have on : x.phase ≠ .cancelled := by simp [requested]
  have kept := stands.kept on
  have asked : l.asked = true := by rw [(stands.reads on).1, requested]; rfl
  obtain ⟨empty, free⟩ := stands.unparked (by simp [requested])
  refine ⟨by simp [Handle.feed, kept, asked, Outcome.isValue, Phase.of],
    by simpa [Handle.feed] using empty, free, ?_⟩
  rw [heard]
  exact .due closed rfl (by simp) (fun _ => asked) kept

theorem offer_idle {v : α} (stands : Standing h x place l [.deliver h (.value v)])
    (idle : x.phase = .idle) :
    Standing h (x.park v) place { l with offers := [.value v] } [] := by
  obtain ⟨closed, -, heard⟩ := stands.course.of_deliver
  have on : x.phase ≠ .cancelled := by simp [idle]
  have kept := stands.kept on
  have asked : l.asked = false := by rw [(stands.reads on).1, idle]; rfl
  refine ⟨by simp [Handle.park, kept, asked, Outcome.isValue, Phase.of], rfl, rfl, ?_⟩
  rw [heard]
  exact .withheld closed (.inr ⟨rfl, asked⟩)

end Offer

/-! ### Callbacks -/

theorem begins {signal : Signal α ε} (stands : Standing h x place l [.notify h signal]) :
    Standing h x place { l with callbacks := l.callbacks ++ [.began h signal] }
      [.finish h signal] :=
  ⟨stands.phase, stands.parked, stands.keepAlive, stands.course.begins.2⟩

/-- Of what a handle remembers, only the course is moved by a callback that ends. -/
theorem moves (stands : Standing h x place l pending) {place' : Place α ε}
    {heard : List (Event α ε)} {pending' : List (Task α ε)}
    (course : Course h place' l.asked l.renounced l.offers heard pending') :
    Standing h x place' { l with callbacks := heard } pending' :=
  ⟨stands.phase, stands.parked, stands.keepAlive, course⟩

end Standing

end OneShot
