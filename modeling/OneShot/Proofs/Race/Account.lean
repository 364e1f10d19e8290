/-
# OneShot.Proofs.Race.Account -- where a handle is on its way to its outcome

A handle that was made is about to enrol, or it waits in the registry, or its outcome is about
to be offered to it, or has been, or it was taken out of the registry: one of these, and once
(`Reached.accounted`).  The exchange on the registry moves a handle from one station to the
next only if nobody was faster, and the freeze moves all that wait at once; so no handle is lost
between a subscription and the end, and none is offered its outcome twice.

A handle is taken out only after it was cancelled, and a cancellation is for good
(`Reached.renounced`).  Whichever of the two comes first, the registration or the cancellation,
there is a thread that still looks after a cancelled handle in the registry (`Reached.attended`).
-/
import OneShot.Proofs.Race.Agreement

namespace OneShot.Race

set_option autoImplicit false

variable {α ε : Type}

/-! ## Stations -/

/-- The handle is about to enrol. -/
def Point.enrols (h : HandleRef) : Point α ε → Bool
  | addLoad g | addSwap g _ _ => g == h
  | _ => false

/-- An outcome is about to be offered to the handle. -/
def Point.offers (h : HandleRef) : Point α ε → Bool
  | offer g _ _ => g == h
  | _ => false

/-- An outcome was offered to the handle. -/
def Event.offers (h : HandleRef) : Event α ε → Bool
  | offered g _ _ => g == h
  | _ => false

/-- The handle was taken out of the registry. -/
def Event.removes (h : HandleRef) : Event α ε → Bool
  | removed g => g == h
  | _ => false

/-- How often a handle stands anywhere on its way, for a part of the points and of the past. -/
def stations (h : HandleRef) (registry : Registry α ε) (points : List (Point α ε))
    (events : List (Event α ε)) : Nat :=
  points.countP (Point.enrols h) + registry.handles.count h + points.countP (Point.offers h)
    + events.countP (Event.offers h) + events.countP (Event.removes h)

/-- A handle that exists stands at one station. -/
def Memory.due (m : Memory α ε) (h : HandleRef) : Nat :=
  if h < m.handles.length then 1 else 0

section Passages

variable {m m' : Memory α ε} {p : Point α ε} {new : List (Point α ε)} {events : List (Event α ε)}

/-- **A point moves a handle from one station to the next**, or makes one. -/
theorem Passage.stations (passage : Passage m p m' new events) (borne : m.Bears p)
    (h : HandleRef) :
    Race.stations h m'.registry new events + m.due h =
      Race.stations h m.registry [p] [] + m'.due h := by
  cases passage with
  | make c =>
      have enrolled : ((m.handles.length == h) = true) = (h = m.handles.length) :=
        propext (beq_iff_eq.trans eq_comm)
      simp only [Race.stations, Memory.due, Memory.make_sink, Memory.make_length]
      simp only [Point.enrols, Point.offers, Event.offers, Event.removes, List.countP_cons,
        List.countP_nil, enrolled, Bool.false_eq_true, if_false]
      rcases Nat.lt_trichotomy h m.handles.length with old | own | beyond
      · rw [if_neg (Nat.ne_of_lt old), if_pos old, if_pos (Nat.lt_succ_of_lt old)]
      · rw [if_pos own, if_neg (Nat.not_lt.2 (Nat.le_of_eq own.symm)),
          if_pos (Nat.lt_succ_of_le (Nat.le_of_eq own))]
        omega
      · rw [if_neg (Nat.ne_of_gt beyond), if_neg (Nat.not_lt_of_gt beyond),
          if_neg (Nat.not_lt.2 beyond)]
  | add g waiting =>
      have live := (borne _ _ rfl).2.1 rfl
      simp only [Race.stations, Memory.due, live, Memory.replace_registry, Memory.replace_handles,
        handles_live, List.count_append, List.count_singleton]
      simp [Point.enrols, Point.offers, Event.offers, Event.removes, List.countP_cons]
      omega
  | remove g waiting =>
      obtain ⟨-, same, waits⟩ := borne _ _ rfl
      have live := same rfl
      have counted : waiting.count h = (waiting.erase g).count h + if g == h then 1 else 0 := by
        rw [List.count_erase]
        by_cases own : g = h
        · subst own
          have some_ := List.count_pos_iff.2 (waits g rfl)
          simp only [beq_self_eq_true, if_true]
          omega
        · simp [own]
      simp only [Race.stations, Memory.due, live, Memory.replace_registry, Memory.replace_handles,
        handles_live, counted]
      simp [Point.enrols, Point.offers, Event.offers, Event.removes, List.countP_cons]
  | freeze o =>
      have offered : (m.registry.handles.map fun g => (.offer g o .loop : Point α ε)).countP
          (Point.offers h) = m.registry.handles.count h := by
        rw [List.countP_map]
        rfl
      simp only [Race.stations, Memory.due, Memory.replace_registry, Memory.replace_handles,
        handles_frozen, List.countP_append, offered]
      simp [Point.enrols, Point.offers, Function.comp_def]
  | _ =>
      simp [Race.stations, Memory.due, Point.enrols, Point.offers, Event.offers, Event.removes,
        Function.comp_def] <;> omega

end Passages

namespace Machine

/-- Every handle that exists stands at one station, and no other handle anywhere. -/
theorem Reached.accounted {programs : List (List (Call α ε))} {m : Machine α ε}
    (reached : m.Reached programs) (h : HandleRef) :
    stations h m.memory.registry m.pending m.past = m.memory.due h := by
  refine reached.keep (P := fun m => stations h m.memory.registry m.pending m.past = m.memory.due h)
    ?_ ?_
  · rw [pending_start]
    simp [stations, Machine.start, Memory.fresh, handles_live, Memory.due]
  · intro m m' reached moves law
    cases moves with
    | @passes p after new events passage memory trades calls =>
        subst memory
        have member : p ∈ m.pending := trades.of_old (List.mem_singleton_self p)
        have passed := passage.stations (reached.grounded.stamped p member) h
        have enrols := trades.countP (Point.enrols h)
        have offers := trades.countP (Point.offers h)
        have offered := trades.past_countP (Event.offers h)
        have removed := trades.past_countP (Event.removes h)
        simp only [stations, List.countP_nil] at law passed ⊢
        omega
    | @enters call new events entry memory trades calls =>
        have mute : (new.countP (Point.enrols h) = 0 ∧ new.countP (Point.offers h) = 0) ∧
            events.countP (Event.offers h) = 0 ∧ events.countP (Event.removes h) = 0 := by
          cases entry <;> simp [Point.enrols, Point.offers, Event.offers, Event.removes]
        have enrols := trades.countP (Point.enrols h)
        have offers := trades.countP (Point.offers h)
        have offered := trades.past_countP (Event.offers h)
        have removed := trades.past_countP (Event.removes h)
        simp only [stations, memory, List.countP_nil] at law enrols offers ⊢
        omega

/-- No handle stands at two stations, or twice at one. -/
theorem Reached.stations_le {programs : List (List (Call α ε))} {m : Machine α ε}
    (reached : m.Reached programs) (h : HandleRef) :
    stations h m.memory.registry m.pending m.past ≤ 1 := by
  rw [reached.accounted, Memory.due]
  split <;> omega

end Machine

/-! ## Cancellation -/

/-- The handle that a point takes out of the registry. -/
def Point.drops? : Point α ε → Option HandleRef
  | removeLoad h | removeSwap h _ _ => some h
  | _ => none

theorem Point.holds_of_drops {p : Point α ε} {h : HandleRef} (drops : p.drops? = some h) :
    h ∈ p.holds := by
  cases p <;> simp_all [drops?, holds]

section Passages

variable {m m' : Memory α ε} {p : Point α ε} {new : List (Point α ε)} {events : List (Event α ε)}

namespace Passage

/-- A handle is cancelled where that is said, and stays cancelled. -/
theorem phase_cancelled (passage : Passage m p m' new events)
    (own : ∀ h ∈ p.holds, h < m.handles.length) {g : HandleRef} (inside : g < m.handles.length) :
    m'.phase g = .cancelled ↔ m.phase g = .cancelled ∨ .cancelled g ∈ events := by
  have set : ∀ {h : HandleRef} {q : Phase}, h < m.handles.length → m.phase h ≠ .cancelled →
      q ≠ .cancelled → ((m.setPhase h q).phase g = .cancelled ↔ m.phase g = .cancelled) := by
    intro h q there on other
    rw [Memory.phase_setPhase g there]
    split
    · rename_i same
      subst same
      simp [on, other]
    · rfl
  cases passage with
  | make c =>
      rw [Memory.phase_make, if_neg (Nat.ne_of_lt inside)]
      simp
  | cancel h on =>
      rw [Memory.phase_setPhase g (own h (by simp [Point.holds]))]
      split
      · rename_i same
        subst same
        simp
      · rename_i other
        simp [other]
  | serve h v before | park h v before | request h before | emit h before =>
      rw [set (own h (by simp [Point.holds])) (by simp [before]) (by simp)]
      simp
  | add | remove | claim | freeze => simp [Memory.phase, Memory.replace]
  | _ => simp

/-- A handle is made idle. -/
theorem phase_made (passage : Passage m p m' new events) {g : HandleRef}
    (beyond : m.handles.length ≤ g) (inside : g < m'.handles.length) :
    m'.phase g = .idle ∧ .subscribed g ∈ events ∧ .cancelled g ∉ events := by
  cases passage with
  | make c =>
      rw [Memory.make_length] at inside
      obtain rfl : g = m.handles.length := Nat.le_antisymm (Nat.le_of_lt_succ inside) beyond
      rw [Memory.phase_make, if_pos rfl]
      simp
  | _ => exact absurd inside (Nat.not_lt.2 (by simpa using beyond))

theorem made (passage : Passage m p m' new events) {g : HandleRef} (made : .subscribed g ∈ events) :
    g < m'.handles.length := by
  cases passage <;> simp_all

/-- Only a cancelled handle is taken out. -/
theorem drops (passage : Passage m p m' new events)
    (own : ∀ h, p.drops? = some h → m.phase h = .cancelled)
    (inside : ∀ h ∈ p.holds, h < m.handles.length) :
    (∀ q ∈ new, ∀ h, q.drops? = some h → m'.phase h = .cancelled) ∧
      ∀ h, .removed h ∈ events → m'.phase h = .cancelled := by
  cases passage with
  | start h signal acts => exact ⟨forall_callback (fun _ => nofun) nofun, by simp⟩
  | freeze o => exact ⟨forall_loop (fun _ _ => nofun) nofun nofun, by simp⟩
  | cancel h on =>
      have there := inside h (by simp [Point.holds])
      simp [Point.drops?, Memory.phase_setPhase h there]
  | remove h waiting =>
      refine ⟨by simp, ?_⟩
      intro g removed
      obtain rfl : g = h := by simpa using removed
      exact own g rfl
  | _ => simp_all [Point.drops?]

end Passage

end Passages

namespace Machine

/-- Cancelled are those handles whose cancellation is in the past, and only such are taken out of
the registry. -/
structure Renounced (m : Machine α ε) : Prop where
  made : ∀ h, .subscribed h ∈ m.past ↔ h < m.memory.handles.length
  phase : ∀ h < m.memory.handles.length, m.memory.phase h = .cancelled ↔ .cancelled h ∈ m.past
  drops : ∀ p ∈ m.pending, ∀ h, p.drops? = some h → m.memory.phase h = .cancelled
  removed : ∀ h, .removed h ∈ m.past → m.memory.phase h = .cancelled

namespace Renounced

variable {m m' : Machine α ε}

theorem moves (renounced : m.Renounced) (grounded : m.Grounded) (moves : m.Moves m') :
    m'.Renounced := by
  cases moves with
  | @enters call new events entry memory trades calls =>
      have mute : (∀ q ∈ new, q.drops? = none) ∧ ∀ h, .subscribed h ∉ events ∧
          .cancelled h ∉ events ∧ .removed h ∉ events := by
        cases entry <;> simp [Point.drops?]
      obtain ⟨points, silent⟩ := mute
      constructor
      · intro h
        rw [trades.mem_past, memory, ← renounced.made]
        simp [(silent h).1]
      · intro h inside
        rw [memory] at inside ⊢
        rw [trades.mem_past, renounced.phase h inside]
        simp [(silent h).2.1]
      · intro q next h drops
        rw [memory]
        rcases trades.of_pending next with new | old
        · rw [points q new] at drops
          cases drops
        · exact renounced.drops q old h drops
      · intro h said
        rw [memory]
        rcases trades.mem_past.1 said with new | old
        · exact absurd new (silent h).2.2
        · exact renounced.removed h old
  | @passes p after new events passage memory trades calls =>
      subst memory
      have member : p ∈ m.pending := trades.of_old (List.mem_singleton_self p)
      have inside := grounded.points p member
      have stays : ∀ h < m.memory.handles.length, m.memory.phase h = .cancelled →
          m'.memory.phase h = .cancelled := fun h there gone =>
        (passage.phase_cancelled inside there).2 (.inl gone)
      obtain ⟨points, removed⟩ := passage.drops (renounced.drops p member) inside
      constructor
      · intro h
        rw [trades.mem_past, renounced.made]
        constructor
        · rintro (new | old)
          · exact passage.made new
          · exact Nat.lt_of_lt_of_le old passage.length
        · intro there
          rcases Nat.lt_or_ge h m.memory.handles.length with old | beyond
          · exact .inr old
          · exact .inl (passage.phase_made beyond there).2.1
      · intro h there
        rw [trades.mem_past]
        rcases Nat.lt_or_ge h m.memory.handles.length with old | beyond
        · rw [passage.phase_cancelled inside old, renounced.phase h old, or_comm]
        · have unsaid : .cancelled h ∉ m.past := fun said =>
            Nat.not_lt.2 beyond (grounded.past _ said h rfl)
          obtain ⟨idle, -, quiet⟩ := passage.phase_made beyond there
          simp [idle, unsaid, quiet]
      · intro q next h drops
        rcases trades.of_pending next with new | old
        · exact points q new h drops
        · have there := grounded.points q old h (Point.holds_of_drops drops)
          exact stays h there (renounced.drops q old h drops)
      · intro h said
        rcases trades.mem_past.1 said with new | old
        · exact removed h new
        · exact stays h (grounded.past _ old h rfl) (renounced.removed h old)

theorem start (programs : List (List (Call α ε))) :
    (Machine.start .fresh programs).Renounced := by
  refine ⟨?_, ?_, by simp, by simp [Machine.start]⟩ <;> simp [Machine.start, Memory.fresh]

end Renounced

theorem Reached.renounced {programs : List (List (Call α ε))} {m : Machine α ε}
    (reached : m.Reached programs) : m.Renounced :=
  reached.keep (.start programs) fun _ _ reached moves renounced =>
    renounced.moves reached.grounded moves

end Machine

/-! ## Attendance -/

/-- The handle that a point is about to take out of the registry if it is cancelled. -/
def Point.attends? : Point α ε → Option HandleRef
  | recheck h | removeLoad h | removeSwap h _ _ => some h
  | _ => none

/-- A cancelled handle that is in the registry after a passage is looked after by what comes
next, or it was there before, and this point was not to look after it. -/
theorem Passage.attends {m m' : Memory α ε} {p : Point α ε} {new : List (Point α ε)}
    {events : List (Event α ε)} (passage : Passage m p m' new events) (borne : m.Bears p)
    (inside : ∀ h ∈ p.holds, h < m.handles.length) {g : HandleRef}
    (once : m.registry.handles.count g ≤ 1) (gone : m'.phase g = .cancelled)
    (waits : g ∈ m'.registry.handles) :
    (∃ q ∈ new, q.attends? = some g) ∨
      m.phase g = .cancelled ∧ g ∈ m.registry.handles ∧ p.attends? ≠ some g := by
  have unset : ∀ {h : HandleRef} {q : Phase}, h < m.handles.length → q ≠ .cancelled →
      (m.setPhase h q).phase g = .cancelled → m.phase g = .cancelled := by
    intro h q there other gone
    rw [Memory.phase_setPhase g there] at gone
    split at gone
    · exact absurd gone other
    · exact gone
  cases passage with
  | make c =>
      rw [Memory.phase_make] at gone
      split at gone
      · cases gone
      · exact .inr ⟨gone, waits, by simp [Point.attends?]⟩
  | add h waiting =>
      have live := (borne _ _ rfl).2.1 rfl
      by_cases own : h = g
      · exact .inl ⟨_, List.mem_singleton_self _, by simp [Point.attends?, own]⟩
      · simp only [Memory.replace_registry, handles_live, List.mem_append,
          List.mem_singleton] at waits
        have old : g ∈ waiting := waits.resolve_right fun eq => own eq.symm
        exact .inr ⟨gone, by rwa [live], by simp [Point.attends?]⟩
  | remove h waiting =>
      have live := (borne _ _ rfl).2.1 rfl
      simp only [Memory.replace_registry, handles_live] at waits
      rw [live, handles_live] at once
      by_cases own : h = g
      · subst own
        have left := List.count_pos_iff.2 waits
        rw [List.count_erase_self] at left
        omega
      · have old := List.mem_of_mem_erase waits
        exact .inr ⟨gone, by rwa [live], by simpa [Point.attends?] using own⟩
  | cancel h on =>
      by_cases own : h = g
      · exact .inl ⟨.removeLoad h, by simp, by simp [Point.attends?, own]⟩
      · rw [Memory.phase_setPhase g (inside h (by simp [Point.holds])),
          if_neg fun eq => own eq.symm] at gone
        exact .inr ⟨gone, waits, by simp [Point.attends?]⟩
  | recheck h on =>
      refine .inr ⟨gone, waits, ?_⟩
      simp only [Point.attends?, ne_eq, Option.some.injEq]
      intro own
      exact on (own ▸ gone)
  | recheckGone h gone' =>
      by_cases own : h = g
      · exact .inl ⟨_, List.mem_singleton_self _, by simp [Point.attends?, own]⟩
      · exact .inr ⟨gone, waits, by simpa [Point.attends?] using own⟩
  | removeNothing h out =>
      refine .inr ⟨gone, waits, ?_⟩
      simp only [Point.attends?, ne_eq, Option.some.injEq]
      intro own
      exact out (own ▸ waits)
  | removeLoad h open_ waits' | removeLate h waiting late =>
      by_cases own : h = g
      · exact .inl ⟨_, List.mem_singleton_self _, by simp [Point.attends?, own]⟩
      · exact .inr ⟨gone, waits, by simpa [Point.attends?] using own⟩
  | serve h | park h | request h | emit h =>
      have before := unset (inside h (by simp [Point.holds])) (by simp) gone
      exact .inr ⟨before, waits, by simp [Point.attends?]⟩
  | freeze o => simp [handles_frozen] at waits
  | claim o pending => exact .inr ⟨gone, waits, by simp [Point.attends?]⟩
  | _ => exact .inr ⟨by simpa using gone, by simpa using waits, by simp [Point.attends?]⟩

namespace Machine

variable {programs : List (List (Call α ε))} {m : Machine α ε}

/-- A handle is at most once in the registry. -/
theorem Reached.count_le (reached : m.Reached programs) (h : HandleRef) :
    m.memory.registry.handles.count h ≤ 1 := by
  have law := reached.stations_le h
  simp only [stations] at law
  omega

/-- Some thread looks after a cancelled handle as long as it is in the registry. -/
theorem Reached.attended (reached : m.Reached programs) :
    ∀ h, m.memory.phase h = .cancelled → h ∈ m.memory.registry.handles →
      ∃ p ∈ m.pending, p.attends? = some h := by
  refine reached.keep (P := fun m => ∀ h, m.memory.phase h = .cancelled →
    h ∈ m.memory.registry.handles → ∃ p ∈ m.pending, p.attends? = some h) ?_ ?_
  · intro h _ waits
    simp [Machine.start, Memory.fresh, handles_live] at waits
  · intro m m' reached moves attended h gone waits
    cases moves with
    | enters entry memory trades calls =>
        rw [memory] at gone waits
        obtain ⟨p, member, attends⟩ := attended h gone waits
        exact ⟨p, (trades.passed_or member).resolve_left List.not_mem_nil, attends⟩
    | @passes p after new events passage memory trades calls =>
        subst memory
        have turn : p ∈ m.pending := trades.of_old (List.mem_singleton_self p)
        have grounded := reached.grounded
        rcases passage.attends (grounded.stamped p turn) (grounded.points p turn)
          (reached.count_le h) gone waits with ⟨q, next, attends⟩ | ⟨gone', waits', other⟩
        · exact ⟨q, trades.of_new next, attends⟩
        · obtain ⟨q, member, attends⟩ := attended h gone' waits'
          rcases trades.passed_or member with passed | still
          · rw [List.mem_singleton.1 passed] at attends
            exact absurd attends other
          · exact ⟨q, still, attends⟩

end Machine

end OneShot.Race
