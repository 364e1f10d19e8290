/-
# OneShot.Proofs.Ledger -- what a history says of one handle, and of one sink

A history is told of everything at once.  `Ledger.of h` is the part of it that bears on
the handle `h`: the callbacks of its consumer as they began and ended, whether there was
positive demand, whether it was cancelled, and the outcomes that were offered to it.
`attempts s` is the part that bears on the end of the sink `s`: the calls that tried
to end it, in the order in which they started, each with its answer.

Both are read off event by event, so what they say after more has happened is what
they said before with the new events added (`Ledger.of_append`, `attempts_append`).
Events of other handles add nothing (`Ledger.of_append_of_others`).
-/
import OneShot.Proofs.Run

namespace OneShot

set_option autoImplicit false

variable {α ε : Type}

/-! ## One handle -/

namespace Event

/-- A callback of this handle begins or ends. -/
def isCallback (h : HandleRef) : Event α ε → Bool
  | began h' _ | ended h' _ => h' == h
  | _ => false

/-- Positive demand reaches this handle while it is alive. -/
def isDemand (h : HandleRef) : Event α ε → Bool
  | requesting h' n => h' == h && n != 0
  | _ => false

/-- A cancellation reaches this handle while it is alive. -/
def isCancel (h : HandleRef) : Event α ε → Bool
  | cancelling h' => h' == h
  | _ => false

/-- The outcome offered to this handle, if the event is such an offer. -/
def offer? (h : HandleRef) : Event α ε → Option (Outcome α ε)
  | attempted h' o => if h' = h then some o else none
  | _ => none

/-- The event bears on this handle's ledger. -/
def concerns (h : HandleRef) : Event α ε → Bool
  | began h' _ | ended h' _ | requesting h' _ | cancelling h' | attempted h' _ => h' == h
  | _ => false

theorem entries_of_others {h : HandleRef} {event : Event α ε} (others : event.concerns h = false) :
    event.isCallback h = false ∧ event.isDemand h = false ∧ event.isCancel h = false ∧
      event.offer? h = none := by
  cases event with
  | began | ended | requesting | cancelling | attempted =>
      simp_all [concerns, isCallback, isDemand, isCancel, offer?]
  | _ => exact ⟨rfl, rfl, rfl, rfl⟩

end Event

/-- The callbacks of a handle, as they began and ended. -/
def callbacks (h : HandleRef) (history : List (Event α ε)) : List (Event α ε) :=
  history.filter (Event.isCallback h)

/-- Callbacks one after the other, each over before the next begins. -/
def inTurn (h : HandleRef) (signals : List (Signal α ε)) : List (Event α ε) :=
  signals.flatMap fun signal => [.began h signal, .ended h signal]

/-- What a history says of a handle. -/
structure Ledger (α ε : Type) where
  callbacks : List (Event α ε)
  asked : Bool
  renounced : Bool
  offers : List (Outcome α ε)

namespace Ledger

def empty : Ledger α ε := { callbacks := [], asked := false, renounced := false, offers := [] }

def of (h : HandleRef) (history : List (Event α ε)) : Ledger α ε :=
  { callbacks := OneShot.callbacks h history,
    asked := history.any (Event.isDemand h),
    renounced := history.any (Event.isCancel h),
    offers := history.filterMap (Event.offer? h) }

@[simp] theorem of_nil (h : HandleRef) : of h ([] : List (Event α ε)) = empty := rfl

theorem of_append (h : HandleRef) (before after : List (Event α ε)) :
    of h (before ++ after) =
      { callbacks := (of h before).callbacks ++ (of h after).callbacks,
        asked := (of h before).asked || (of h after).asked,
        renounced := (of h before).renounced || (of h after).renounced,
        offers := (of h before).offers ++ (of h after).offers } := by
  simp [of, OneShot.callbacks, List.filterMap_append]

theorem of_eq_empty {h : HandleRef} {events : List (Event α ε)}
    (others : ∀ event ∈ events, event.concerns h = false) : of h events = empty := by
  have nothing := fun event member => Event.entries_of_others (others event member)
  simp only [of, empty, mk.injEq, OneShot.callbacks, List.filter_eq_nil_iff, List.any_eq_false,
    List.filterMap_eq_nil_iff]
  exact ⟨fun event member => by simp [(nothing event member).1],
    fun event member => by simp [(nothing event member).2.1],
    fun event member => by simp [(nothing event member).2.2.1],
    fun event member => (nothing event member).2.2.2⟩

theorem of_append_of_others {h : HandleRef} (before : List (Event α ε)) {after : List (Event α ε)}
    (others : ∀ event ∈ after, event.concerns h = false) :
    of h (before ++ after) = of h before := by
  rw [of_append, of_eq_empty others]
  simp [empty]

/-! What one event of the handle adds, whatever of others comes with it. -/

section Entry

variable {h : HandleRef} {others : List (Event α ε)}

theorem of_entry (history : List (Event α ε)) (event : Event α ε)
    (aside : ∀ event ∈ others, event.concerns h = false) :
    of h (history ++ event :: others) = of h (history ++ [event]) := by
  rw [show history ++ event :: others = (history ++ [event]) ++ others by simp]
  exact of_append_of_others _ aside

theorem of_demand (history : List (Event α ε)) {n : UInt64} (positive : n ≠ 0)
    (aside : ∀ event ∈ others, event.concerns h = false) :
    of h (history ++ .requesting h n :: others) = { of h history with asked := true } := by
  rw [of_entry _ _ aside, of_append]
  simp [of, OneShot.callbacks, Event.isCallback, Event.isDemand, Event.isCancel, Event.offer?,
    positive]

theorem of_no_demand (history : List (Event α ε))
    (aside : ∀ event ∈ others, event.concerns h = false) :
    of h (history ++ .requesting h 0 :: others) = of h history := by
  rw [of_entry _ _ aside, of_append]
  simp [of, OneShot.callbacks, Event.isCallback, Event.isDemand, Event.isCancel, Event.offer?]

theorem of_cancel (history : List (Event α ε))
    (aside : ∀ event ∈ others, event.concerns h = false) :
    of h (history ++ .cancelling h :: others) = { of h history with renounced := true } := by
  rw [of_entry _ _ aside, of_append]
  simp [of, OneShot.callbacks, Event.isCallback, Event.isDemand, Event.isCancel, Event.offer?]

theorem of_offer (history : List (Event α ε)) (o : Outcome α ε)
    (aside : ∀ event ∈ others, event.concerns h = false) :
    of h (history ++ .attempted h o :: others) =
      { of h history with offers := (of h history).offers ++ [o] } := by
  rw [of_entry _ _ aside, of_append]
  simp [of, OneShot.callbacks, Event.isCallback, Event.isDemand, Event.isCancel, Event.offer?]

theorem of_began (history : List (Event α ε)) (signal : Signal α ε)
    (aside : ∀ event ∈ others, event.concerns h = false) :
    of h (history ++ .began h signal :: others) =
      { of h history with callbacks := (of h history).callbacks ++ [.began h signal] } := by
  rw [of_entry _ _ aside, of_append]
  simp [of, OneShot.callbacks, Event.isCallback, Event.isDemand, Event.isCancel, Event.offer?]

theorem of_ended (history : List (Event α ε)) (signal : Signal α ε)
    (aside : ∀ event ∈ others, event.concerns h = false) :
    of h (history ++ .ended h signal :: others) =
      { of h history with callbacks := (of h history).callbacks ++ [.ended h signal] } := by
  rw [of_entry _ _ aside, of_append]
  simp [of, OneShot.callbacks, Event.isCallback, Event.isDemand, Event.isCancel, Event.offer?]

end Entry

theorem asked_iff {h : HandleRef} {history : List (Event α ε)} :
    (of h history).asked = true ↔ ∃ n, n ≠ 0 ∧ .requesting h n ∈ history := by
  simp only [of, List.any_eq_true]
  constructor
  · rintro ⟨event, member, demand⟩
    cases event <;> simp_all [Event.isDemand]
    obtain ⟨rfl, positive⟩ := demand
    exact ⟨_, positive, member⟩
  · rintro ⟨n, positive, member⟩
    exact ⟨_, member, by simp [Event.isDemand, positive]⟩

theorem renounced_iff {h : HandleRef} {history : List (Event α ε)} :
    (of h history).renounced = true ↔ .cancelling h ∈ history := by
  simp only [of, List.any_eq_true]
  constructor
  · rintro ⟨event, member, cancel⟩
    cases event <;> simp_all [Event.isCancel]
  · exact fun member => ⟨_, member, by simp [Event.isCancel]⟩

end Ledger

/-! ## One sink -/

/-- The attempt to end this sink, with its answer, if the event is one. -/
def Event.attempt? (s : SinkRef) : Event α ε → Option (Outcome α ε × Bool)
  | terminating s' o won => if s' = s then some (o, won) else none
  | _ => none

/-- The calls that tried to end a sink, with their answers, in the order in which they
started. -/
def attempts (s : SinkRef) (history : List (Event α ε)) : List (Outcome α ε × Bool) :=
  history.filterMap (Event.attempt? s)

theorem attempts_append (s : SinkRef) (before after : List (Event α ε)) :
    attempts s (before ++ after) = attempts s before ++ attempts s after := by
  simp [attempts]

theorem attempts_eq_nil {s : SinkRef} {events : List (Event α ε)}
    (others : ∀ event ∈ events, event.attempt? s = none) : attempts s events = [] := by
  simpa [attempts] using others

theorem mem_attempts {s : SinkRef} {history : List (Event α ε)} {o : Outcome α ε} {won : Bool} :
    (o, won) ∈ attempts s history ↔ .terminating s o won ∈ history := by
  simp only [attempts, List.mem_filterMap]
  constructor
  · rintro ⟨event, member, attempt⟩
    cases event <;> simp_all [Event.attempt?]
  · exact fun member => ⟨_, member, by simp [Event.attempt?]⟩

/-! ## Callbacks that steps make -/

/-- The callback that a step makes past every sink. -/
def Event.direct? : Event α ε → Option (DirectTarget × Signal α ε)
  | direct target signal => some (target, signal)
  | _ => none

def directs (history : List (Event α ε)) : List (DirectTarget × Signal α ε) :=
  history.filterMap Event.direct?

theorem mem_directs {history : List (Event α ε)} {target : DirectTarget} {signal : Signal α ε} :
    (target, signal) ∈ directs history ↔ .direct target signal ∈ history := by
  simp only [directs, List.mem_filterMap]
  constructor
  · rintro ⟨event, member, made⟩
    cases event <;> simp_all [Event.direct?]
  · exact fun member => ⟨_, member, by simp [Event.direct?]⟩

/-! ## Events that bear on nothing -/

/-- Steps, replies, notices, and what channels and gates are told past every sink. -/
def Event.isAside : Event α ε → Bool
  | performed _ _ | answered _ _ _ | direct _ _ | received _ _ | noticed _ => true
  | _ => false

theorem Event.concerns_of_isAside {event : Event α ε} (aside : event.isAside = true)
    (h : HandleRef) : event.concerns h = false := by
  cases event <;> simp_all [isAside, concerns]

theorem Event.attempt?_of_isAside {event : Event α ε} (aside : event.isAside = true)
    (s : SinkRef) : event.attempt? s = none := by
  cases event <;> simp_all [isAside, attempt?]

end OneShot
