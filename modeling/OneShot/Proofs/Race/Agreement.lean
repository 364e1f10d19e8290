/-
# OneShot.Proofs.Race.Agreement -- all that is told of the end is one outcome

The winner freezes the registry with its outcome, and a frozen registry never changes again
(`Passage.frozen`).  Whatever is offered, parked or heard after that was read from it, by the
loop of the winner or by a replay: it is the outcome of the frozen registry (`Agreed`), and
what is parked is a value.

Each ending call makes one claim, whether it wins or loses (`Reached.attempts`).  So once all
calls have returned there is a winner if there was an ending call at all (`Reached.ended`),
and the registry is still open if there was none (`Reached.open_`).
-/
import OneShot.Proofs.Race.Verdict

namespace OneShot.Race

set_option autoImplicit false

variable {α ε : Type}

/-! ## What is told -/

/-- The outcome of which a signal tells. -/
def told? : Signal α ε → Option (Outcome α ε)
  | .next v => some (.value v)
  | .error e => some (.error e)
  | .subscribed | .complete => none

/-- The outcome that a point carries to a handle. -/
def Point.tells? : Point α ε → Option (Outcome α ε)
  | offer _ o _ => some o
  | valueLoad _ v | serveSwap _ v | parkStore _ v | keepStore _ v | parkSwap _ v =>
      some (.value v)
  | start _ signal | finish _ signal => told? signal
  | _ => none

/-- The outcome of which an event tells. -/
def Event.tells? : Event α ε → Option (Outcome α ε)
  | offered _ o _ => some o
  | began _ signal | ended _ signal => told? signal
  | _ => none

/-- Points, past and parked outcomes tell of the outcome of the frozen registry, and only values
are parked. -/
structure Machine.Agreed (m : Machine α ε) : Prop where
  points : ∀ p ∈ m.pending, ∀ o, p.tells? = some o → m.memory.registry = .frozen o
  past : ∀ event ∈ m.past, ∀ o, event.tells? = some o → m.memory.registry = .frozen o
  parked : ∀ h o, m.memory.parked h = some o → m.memory.registry = .frozen o ∧ ∃ v, o = .value v

section Passages

variable {m m' : Memory α ε} {p : Point α ε} {new : List (Point α ε)} {events : List (Event α ε)}

namespace Passage

/-- A frozen registry stays as it is. -/
theorem frozen (passage : Passage m p m' new events) (borne : m.Bears p) {o : Outcome α ε}
    (closed : m.registry = .frozen o) (other : p.freezes? = none) : m'.registry = .frozen o := by
  have outdated : ∀ {stamp waiting}, p.loaded? = some (stamp, waiting) → m.stamp ≠ stamp := by
    intro stamp waiting loaded same
    have live := (borne stamp waiting loaded).2.1 same
    rw [closed] at live
    cases live
  cases passage with
  | freeze o' => cases other
  | add h waiting => exact absurd rfl (outdated rfl)
  | remove h waiting => exact absurd rfl (outdated rfl)
  | _ => simpa using closed

/-- What comes next tells of nothing else than the point itself, or the registry, or the cell
of its handle. -/
theorem tells (passage : Passage m p m' new events)
    (own : ∀ o, p.tells? = some o → m.registry = .frozen o)
    (parked : ∀ h o, m.parked h = some o → m.registry = .frozen o) :
    (∀ q ∈ new, ∀ o, q.tells? = some o → m'.registry = .frozen o) ∧
      ∀ event ∈ events, ∀ o, event.tells? = some o → m'.registry = .frozen o := by
  cases passage with
  | start h signal acts =>
      refine ⟨?_, by simpa [Point.tells?, Event.tells?] using own⟩
      exact forall_callback (fun _ => nofun) own
  | freeze o =>
      refine ⟨?_, by simp⟩
      apply forall_loop
      · rintro h - o' tells
        cases tells
        rfl
      · nofun
      · nofun
  | addReplay h closed => simpa [Point.tells?] using closed
  | take h full => simpa [Point.tells?, told?] using parked h _ full
  | _ => simp_all [Point.tells?, Event.tells?, told?]

/-- A value is parked by its own point, and by no other. -/
theorem parks (passage : Passage m p m' new events)
    (own : ∀ o, p.tells? = some o → m.registry = .frozen o)
    (inside : ∀ h ∈ p.holds, h < m.handles.length)
    {g : HandleRef} {o : Outcome α ε} (full : m'.parked g = some o) :
    m.parked g = some o ∨ m'.registry = .frozen o ∧ ∃ v, o = .value v := by
  cases passage with
  | make c => exact .inl (by rwa [Memory.parked_make] at full)
  | parkStore h v =>
      rw [Memory.parked_setParked g (inside h (by simp [Point.holds]))] at full
      split at full
      · cases full
        exact .inr ⟨own _ rfl, v, rfl⟩
      · exact .inl full
  | clearParked h | take h full' | takeNothing h lacking =>
      rw [Memory.parked_setParked g (inside h (by simp [Point.holds]))] at full
      split at full
      · cases full
      · exact .inl full
  | add | remove | claim | freeze => exact .inl full
  | _ => exact .inl (by simpa using full)

end Passage

end Passages

namespace Machine.Agreed

variable {m m' : Machine α ε}

theorem moves (agreed : m.Agreed) (grounded : m.Grounded) (decided : m.Decided)
    (moves : m.Moves m') : m'.Agreed := by
  cases moves with
  | @enters call new events entry memory trades calls =>
      have mute : (∀ q ∈ new, q.tells? = none) ∧ ∀ event ∈ events, event.tells? = none := by
        cases entry <;> simp [Point.tells?, Event.tells?]
      refine ⟨?_, ?_, ?_⟩
      · intro q next o tells
        rw [memory]
        rcases trades.of_pending next with new | old
        · rw [mute.1 q new] at tells
          cases tells
        · exact agreed.points q old o tells
      · intro event said o tells
        rw [memory]
        rcases trades.mem_past.1 said with new | old
        · rw [mute.2 event new] at tells
          cases tells
        · exact agreed.past event old o tells
      · rw [memory]
        exact agreed.parked
  | @passes p after new events passage memory trades calls =>
      subst memory
      have member : p ∈ m.pending := trades.of_old (List.mem_singleton_self p)
      have own := agreed.points p member
      -- whoever freezes finds the registry open, so what was frozen stays so
      have stays : ∀ o, m.memory.registry = .frozen o → m'.memory.registry = .frozen o := by
        intro o closed
        apply passage.frozen (grounded.stamped p member) closed
        cases freezes : p.freezes? with
        | none => rfl
        | some o' =>
            have due := List.mem_filterMap.2 ⟨p, member, freezes⟩
            rw [(decided.verdict.of_frozen closed).2.1] at due
            cases due
      obtain ⟨points, past⟩ := passage.tells own fun h o full => (agreed.parked h o full).1
      refine ⟨?_, ?_, ?_⟩
      · intro q next o tells
        rcases trades.of_pending next with new | old
        · exact points q new o tells
        · exact stays o (agreed.points q old o tells)
      · intro event said o tells
        rcases trades.mem_past.1 said with new | old
        · exact past event new o tells
        · exact stays o (agreed.past event old o tells)
      · intro h o full
        rcases passage.parks own (grounded.points p member) full with old | new
        · obtain ⟨closed, value⟩ := agreed.parked h o old
          exact ⟨stays o closed, value⟩
        · exact new

theorem start (programs : List (List (Call α ε))) : (Machine.start .fresh programs).Agreed := by
  refine ⟨by simp, by simp [Machine.start], ?_⟩
  intro h o full
  cases full

/-- What is offered has won the flag. -/
theorem claimed (agreed : m.Agreed) (decided : m.Decided) {h : HandleRef} {o : Outcome α ε}
    {source : Source} (offered : .offered h o source ∈ m.past) : .claimed o true ∈ m.past := by
  have closed := agreed.past _ offered o rfl
  apply mem_claims.1
  rw [(decided.verdict.of_frozen closed).2.2.1]
  exact List.mem_singleton_self o

end Machine.Agreed

theorem Machine.Reached.agreed {programs : List (List (Call α ε))} {m : Machine α ε}
    (reached : m.Reached programs) : m.Agreed :=
  reached.keep (.start programs) fun _ _ reached moves agreed =>
    agreed.moves reached.grounded reached.decided moves

/-! ## Attempts -/

/-- The point tries for the flag. -/
def Point.tries : Point α ε → Bool
  | claim _ => true
  | _ => false

/-- A call has tried for the flag. -/
def Event.tries : Event α ε → Bool
  | claimed _ _ => true
  | _ => false

def Call.ends : Call α ε → Bool
  | terminate _ => true
  | _ => false

theorem Passage.tries {m m' : Memory α ε} {p : Point α ε} {new : List (Point α ε)}
    {events : List (Event α ε)} (passage : Passage m p m' new events) :
    new.countP Point.tries + events.countP Event.tries = [p].countP Point.tries := by
  cases passage <;> simp [Point.tries, Event.tries, Function.comp_def]

theorem Machine.Entry.tries {m : Machine α ε} {call : Call α ε} {new : List (Point α ε)}
    {events : List (Event α ε)} (entry : m.Entry call new events) :
    new.countP Point.tries + events.countP Event.tries = [call].countP Call.ends := by
  cases entry <;> simp [Point.tries, Event.tries, Call.ends]

/-- A claim is made by the point of its own. -/
theorem Passage.claimed {m m' : Memory α ε} {p : Point α ε} {new : List (Point α ε)}
    {events : List (Event α ε)} (passage : Passage m p m' new events) {o : Outcome α ε} :
    (∀ won, .claimed o won ∈ events → p = .claim o) ∧ .claim o ∉ new := by
  cases passage <;> simp [eq_comm]

theorem Machine.Entry.claimed {m : Machine α ε} {call : Call α ε} {new : List (Point α ε)}
    {events : List (Event α ε)} (entry : m.Entry call new events) {o : Outcome α ε} :
    (∀ won, .claimed o won ∉ events) ∧ (.claim o ∈ new → call = .terminate o) := by
  cases entry <;> simp [eq_comm]

namespace Machine.Reached

variable {programs : List (List (Call α ε))} {m : Machine α ε}

/-- Every ending call is still to be made, or about to try for the flag, or has tried. -/
theorem attempts (reached : m.Reached programs) :
    m.past.countP Event.tries + m.pending.countP Point.tries + m.calls.countP Call.ends =
      programs.flatten.countP Call.ends :=
  reached.tallied Passage.tries Entry.tries

/-- Whoever tries for the flag does so with the outcome of an ending call. -/
theorem called (reached : m.Reached programs) {o : Outcome α ε} {won : Bool}
    (claimed : .claimed o won ∈ m.past) : .terminate o ∈ programs.flatten := by
  have law : (∀ call ∈ m.calls, call ∈ programs.flatten) ∧
      (.claim o ∈ m.pending → .terminate o ∈ programs.flatten) ∧
      ∀ won, .claimed o won ∈ m.past → .terminate o ∈ programs.flatten := by
    refine reached.keep (P := fun m => (∀ call ∈ m.calls, call ∈ programs.flatten) ∧
      (.claim o ∈ m.pending → .terminate o ∈ programs.flatten) ∧
      ∀ won, .claimed o won ∈ m.past → .terminate o ∈ programs.flatten) ?_ ?_
    · rw [pending_start, calls_start]
      exact ⟨fun _ => id, nofun, nofun⟩
    · rintro m m' - moves ⟨own, points, past⟩
      cases moves with
      | passes passage memory trades calls =>
          refine ⟨by rwa [calls], ?_, ?_⟩
          · intro due
            rcases trades.of_pending due with new | old
            · exact absurd new passage.claimed.2
            · exact points old
          · intro won said
            rcases trades.mem_past.1 said with new | old
            · obtain rfl := passage.claimed.1 won new
              exact points (trades.of_old (List.mem_singleton_self _))
            · exact past won old
      | enters entry memory trades calls =>
          refine ⟨?_, ?_, ?_⟩
          · intro call member
            exact own call (calls.mem_iff.2 (List.mem_cons_of_mem _ member))
          · intro due
            rcases trades.of_pending due with new | old
            · obtain rfl := entry.claimed.2 new
              exact own _ (calls.mem_iff.2 List.mem_cons_self)
            · exact points old
          · intro won said
            rcases trades.mem_past.1 said with new | old
            · exact absurd new (entry.claimed.1 won)
            · exact past won old
  exact law.2.2 won claimed

/-- **Once all calls have returned, one of the ending calls has won, if there are any.** -/
theorem ended (reached : m.Reached programs) (done : m.done = true) {call : Call α ε}
    (made : call ∈ programs.flatten) (ends : call.ends = true) :
    m.past.countP Event.wins = 1 ∧
      ∃ o, .claimed o true ∈ m.past ∧ m.memory.registry = .frozen o := by
  obtain ⟨nothing, none_⟩ := done_iff.1 done
  have attempts := reached.attempts
  have some_ : 0 < programs.flatten.countP Call.ends := List.countP_pos_iff.2 ⟨call, made, ends⟩
  rw [nothing, none_] at attempts
  have tried : 0 < m.past.countP Event.tries := by
    simp only [List.countP_nil] at attempts
    omega
  obtain ⟨event, said, tries⟩ := List.countP_pos_iff.1 tried
  have taken : m.memory.flag ≠ .pending := by
    cases event with
    | claimed o won => exact reached.decided.tried o won said
    | _ => cases tries
  have verdict := reached.decided.verdict
  rw [nothing] at verdict
  obtain ⟨o, frozen, claims, answers⟩ := verdict.of_taken taken
  refine ⟨?_, o, ?_, frozen⟩
  · simpa using answers
  · exact mem_claims.1 (claims ▸ List.mem_singleton_self o)

/-- **With no ending call the registry stays open.** -/
theorem open_ (reached : m.Reached programs)
    (unended : ∀ call ∈ programs.flatten, call.ends = false) :
    ∃ waiting, m.memory.registry = .live waiting := by
  have attempts := reached.attempts
  have none_ : programs.flatten.countP Call.ends = 0 :=
    List.countP_eq_zero.2 fun call made => by simp [unended call made]
  have untried : m.past.countP Event.tries = 0 := by omega
  have unclaimed : m.past.filterMap Event.claims? = [] := by
    rw [List.filterMap_eq_nil_iff]
    intro event said
    have idle := List.countP_eq_zero.1 untried event said
    cases event with
    | claimed o won => exact absurd rfl idle
    | _ => rfl
  have verdict := reached.decided.verdict
  rw [unclaimed] at verdict
  exact verdict.of_unclaimed

end Machine.Reached

end OneShot.Race
