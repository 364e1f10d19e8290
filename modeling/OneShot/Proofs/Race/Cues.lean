/-
# OneShot.Proofs.Race.Cues -- what is over before something else begins

Nothing is offered to a handle before its consumer has been acknowledged, and no completion
begins before the value has been heard, unless there is none.  Both hold because of the order
in which a thread passes its points, so here, and only here, it matters which thread a point
belongs to, and which points stand before it.

A point, like an event, may need a cue, and may give one.  In a thread's work each point has got
its cue when its turn comes: the cue was given in the past, or is given by a point ahead
(`Led`).  So in the past no event comes before its cue (`Orderly`).
-/
import OneShot.Proofs.Race.Account

namespace OneShot.Race

set_option autoImplicit false

variable {α ε : Type}

/-! ## Cues -/

/-- The acknowledgment of a handle's subscription is over; or its value was heard, or there
is none. -/
inductive Cue
  | welcomed (h : HandleRef)
  | fulfilled (h : HandleRef)
  deriving DecidableEq, Repr

/-- The cue that is given when a callback has returned. -/
def cueAfter? (h : HandleRef) : Signal α ε → Option Cue
  | .subscribed => some (.welcomed h)
  | .next _ => some (.fulfilled h)
  | .complete | .error _ => none

/-- The cue that a callback needs. -/
def cueBefore? (h : HandleRef) : Signal α ε → Option Cue
  | .complete => some (.fulfilled h)
  | .subscribed | .next _ | .error _ => none

def Event.gives? : Event α ε → Option Cue
  | ended h signal => cueAfter? h signal
  | offered h .empty _ => some (.fulfilled h)
  | _ => none

def Event.needs? : Event α ε → Option Cue
  | offered h _ _ => some (.welcomed h)
  | began h signal => cueBefore? h signal
  | _ => none

def Point.gives? : Point α ε → Option Cue
  | start h signal | finish h signal => cueAfter? h signal
  | _ => none

def Point.needs? : Point α ε → Option Cue
  | addLoad h | addSwap h _ _ | offer h _ _ => some (.welcomed h)
  | start h signal => cueBefore? h signal
  | afterNext h => some (.fulfilled h)
  | _ => none

/-- The cue was given by one of these events. -/
def Given (past : List (Event α ε)) (c : Cue) : Prop := ∃ event ∈ past, event.gives? = some c

/-- Each point of this work has got its cue when its turn comes. -/
def Led (given : Cue → Prop) : List (Point α ε) → Prop
  | [] => True
  | p :: rest =>
      (∀ c, p.needs? = some c → given c) ∧ Led (fun c => given c ∨ p.gives? = some c) rest

/-- Each event of this past has got its cue before. -/
def Orderly : List (Event α ε) → Prop
  | [] => True
  | event :: older => (∀ c, event.needs? = some c → Given older c) ∧ Orderly older

theorem Given.grown {newer older : List (Event α ε)} {c : Cue} (given : Given older c) :
    Given (newer ++ older) c := by
  obtain ⟨event, said, gives⟩ := given
  exact ⟨event, List.mem_append_right _ said, gives⟩

theorem Event.welcomes {event : Event α ε} {h : HandleRef}
    (gives : event.gives? = some (.welcomed h)) : event = .ended h .subscribed := by
  cases event with
  | ended g signal => cases signal <;> simp_all [gives?, cueAfter?]
  | offered g o source => cases o <;> simp [gives?] at gives
  | _ => cases gives

namespace Led

variable {given given' : Cue → Prop} {work work' : List (Point α ε)}

theorem mono (more : ∀ c, given c → given' c) (led : Led given work) : Led given' work := by
  induction work generalizing given given' with
  | nil => trivial
  | cons p rest ih =>
      obtain ⟨own, led⟩ := led
      refine ⟨fun c needs => more c (own c needs), ih ?_ led⟩
      intro c
      exact Or.imp_left (more c)

/-- Where all cues are there already, the order does not matter. -/
theorem of_given (own : ∀ p ∈ work, ∀ c, p.needs? = some c → given c) : Led given work := by
  induction work generalizing given with
  | nil => trivial
  | cons p rest ih =>
      refine ⟨own p List.mem_cons_self, ih ?_⟩
      intro q member c needs
      exact .inl (own q (List.mem_cons_of_mem p member) c needs)

theorem append (led : Led given work)
    (led' : Led (fun c => given c ∨ ∃ p ∈ work, p.gives? = some c) work') :
    Led given (work ++ work') := by
  induction work generalizing given with
  | nil => exact led'.mono (by simp)
  | cons p rest ih =>
      refine ⟨led.1, ih led.2 (led'.mono ?_)⟩
      intro c
      simp only [List.mem_cons, exists_eq_or_imp, or_assoc]
      exact id

end Led

theorem Orderly.split {past newer older : List (Event α ε)} {event : Event α ε}
    (orderly : Orderly past) (parts : past = newer ++ event :: older) :
    ∀ c, event.needs? = some c → Given older c := by
  subst parts
  induction newer with
  | nil => exact orderly.1
  | cons _ newer ih => exact ih orderly.2

/-! ## Passages -/

section Passages

variable {m m' : Memory α ε} {p : Point α ε} {new : List (Point α ε)} {events : List (Event α ε)}
  {given : Cue → Prop}

namespace Passage

/-- The points that come next are led, given what has happened with the passage. -/
theorem led (passage : Passage m p m' new events) (own : ∀ c, p.needs? = some c → given c)
    (waiting : ∀ h ∈ m.registry.handles, given (.welcomed h)) :
    Led (fun c => given c ∨ Given events c) new := by
  cases passage with
  | start h signal acts => exact Led.of_given (forall_callback (fun _ => nofun) nofun)
  | freeze o =>
      apply Led.of_given
      apply forall_loop
      · intro h member c needs
        cases needs
        exact .inl (waiting h member)
      · nofun
      · nofun
  | _ =>
      simp_all [Led, Point.needs?, Point.gives?, cueAfter?, cueBefore?, Given, Event.gives?]

/-- The cue that a point was to give is given with its passage, or by the points that come
next. -/
theorem hands_on (passage : Passage m p m' new events) {c : Cue} (gives : p.gives? = some c) :
    Given events c ∨ ∃ q ∈ new, q.gives? = some c := by
  cases passage with
  | start h signal acts =>
      exact .inr ⟨_, List.mem_append_right _ (List.mem_singleton_self _), gives⟩
  | finish h signal => exact .inl ⟨_, List.mem_singleton_self _, gives⟩
  | _ => cases gives

/-- Who waits in the registry has been acknowledged. -/
theorem waits (passage : Passage m p m' new events) (borne : m.Bears p)
    (own : ∀ c, p.needs? = some c → given c)
    (waiting : ∀ h ∈ m.registry.handles, given (.welcomed h)) :
    ∀ h ∈ m'.registry.handles, given (.welcomed h) := by
  cases passage with
  | add h others =>
      have live := (borne _ _ rfl).2.1 rfl
      intro g member
      simp only [Memory.replace_registry, handles_live, List.mem_append,
        List.mem_singleton] at member
      rcases member with old | rfl
      · exact waiting g (by rwa [live])
      · exact own _ rfl
  | remove h others =>
      have live := (borne _ _ rfl).2.1 rfl
      intro g member
      simp only [Memory.replace_registry, handles_live] at member
      apply waiting
      rw [live]
      exact List.mem_of_mem_erase member
  | freeze o => simp [handles_frozen]
  | _ => simpa using waiting

/-- At most one thing happens, and with its cue. -/
theorem orderly (passage : Passage m p m' new events) {past : List (Event α ε)}
    (own : ∀ c, p.needs? = some c → Given past c) (orderly : Orderly past) :
    Orderly (events.reverse ++ past) := by
  cases passage <;> simp_all [Orderly, Event.needs?, Point.needs?, cueBefore?]

end Passage

end Passages

/-! ## Every run -/

namespace Machine

/-- Threads and past keep to their cues. -/
structure Cued (m : Machine α ε) : Prop where
  works : ∀ work ∈ m.threads.map Thread.work, Led (Given m.past) work
  waiting : ∀ h ∈ m.memory.registry.handles, Given m.past (.welcomed h)
  past : Orderly m.past

namespace Cued

variable {m m' : Machine α ε} {old new : List (Point α ε)} {events : List (Event α ε)}

/-- The point whose turn it is has got its cue. -/
theorem own (cued : m.Cued) {p : Point α ε} (trades : m.Trades m' [p] new events) :
    ∀ c, p.needs? = some c → Given m.past c := by
  obtain ⟨before, rest, after, works, -⟩ := trades.works
  have mine : Led (Given m.past) (p :: rest) := cued.works _ (by simp [works])
  exact mine.1

/-- A thread that is led stays so when the points at its front are replaced by points that are
led and give what the old ones were to give. -/
theorem trade (cued : m.Cued) (trades : m.Trades m' old new events)
    (led : Led (Given m'.past) new)
    (ahead : ∀ rest given, Led given (old ++ rest) → (∀ c, given c → Given m'.past c) →
      Led (fun c => Given m'.past c ∨ ∃ q ∈ new, q.gives? = some c) rest) :
    ∀ work ∈ m'.threads.map Thread.work, Led (Given m'.past) work := by
  have grown : ∀ c, Given m.past c → Given m'.past c := by
    intro c given
    rw [trades.past]
    exact given.grown
  obtain ⟨before, rest, after, works, works'⟩ := trades.works
  have mine : Led (Given m.past) (old ++ rest) := cued.works _ (by simp [works])
  have others : ∀ work ∈ before ++ after, Led (Given m'.past) work := by
    intro work member
    refine (cued.works work ?_).mono grown
    rw [works, List.mem_append, List.mem_cons]
    exact (List.mem_append.1 member).imp_right .inr
  intro work member
  rw [works', List.mem_append, List.mem_cons] at member
  rcases member with left | rfl | right
  · exact others work (List.mem_append_left _ left)
  · exact led.append (ahead rest _ mine grown)
  · exact others work (List.mem_append_right _ right)

theorem moves (cued : m.Cued) (grounded : m.Grounded) (moves : m.Moves m') : m'.Cued := by
  cases moves with
  | @enters call new events entry memory trades calls =>
      have free : ∀ q ∈ new, q.needs? = none := by
        cases entry <;> simp [Point.needs?]
      refine ⟨?_, ?_, ?_⟩
      · refine cued.trade trades (Led.of_given ?_) ?_
        · intro q next c needs
          rw [free q next] at needs
          cases needs
        · intro rest given led more
          exact led.mono fun c there => .inl (more c there)
      · rw [memory, trades.past]
        exact fun h member => (cued.waiting h member).grown
      · rw [trades.past]
        have past := cued.past
        cases entry <;> simp_all [Orderly, Event.needs?]
  | @passes p after new events passage memory trades calls =>
      subst memory
      have member : p ∈ m.pending := trades.of_old (List.mem_singleton_self p)
      have own := cued.own trades
      have told : ∀ c, Given events c → Given m'.past c := by
        rintro c ⟨event, said, gives⟩
        exact ⟨event, trades.mem_past.2 (.inl said), gives⟩
      refine ⟨?_, ?_, ?_⟩
      · refine cued.trade trades ((passage.led own cued.waiting).mono ?_) ?_
        · rintro c (there | new)
          · rw [trades.past]
            exact there.grown
          · exact told c new
        · rintro rest given ⟨-, led⟩ more
          apply led.mono
          rintro c (there | gives)
          · exact .inl (more c there)
          · exact (passage.hands_on gives).imp_left (told c)
      · rw [trades.past]
        exact fun h waits =>
          (passage.waits (grounded.stamped p member) own cued.waiting h waits).grown
      · rw [trades.past]
        exact passage.orderly own cued.past

theorem start (programs : List (List (Call α ε))) : (Machine.start .fresh programs).Cued := by
  refine ⟨?_, ?_, trivial⟩
  · intro work member
    obtain ⟨program, -, rfl⟩ : ∃ program ∈ programs, work = [] := by
      simpa [Machine.start, Thread.running] using member
    trivial
  · simp [Machine.start, Memory.fresh, handles_live]

end Cued

theorem Reached.cued {programs : List (List (Call α ε))} {m : Machine α ε}
    (reached : m.Reached programs) : m.Cued :=
  reached.keep (.start programs) fun _ _ reached moves cued => cued.moves reached.grounded moves

/-- Read forwards: what a run says comes after its cue. -/
theorem Cued.before {m : Machine α ε} (cued : m.Cued) {before after : List (Event α ε)}
    {event : Event α ε} (parts : m.history = before ++ event :: after) :
    ∀ c, event.needs? = some c → ∃ cue ∈ before, cue.gives? = some c := by
  have past : m.past = after.reverse ++ event :: before.reverse := by
    rw [← List.reverse_reverse m.past]
    show m.history.reverse = _
    rw [parts]
    simp
  intro c needs
  obtain ⟨cue, said, gives⟩ := cued.past.split past c needs
  exact ⟨cue, List.mem_reverse.1 said, gives⟩

end Machine

end OneShot.Race
