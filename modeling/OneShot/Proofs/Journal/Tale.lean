/-
# OneShot.Proofs.Journal.Tale -- what the log tells of one handle, and of one sink

The log is made of the notices of a run, in order.  What it tells of one handle is one of a few
short stories, and which one goes with three things that the store and the history know of the
handle: whether its acknowledgment is back, whether it waits in the registry of its sink, and
its phase.  `Story` lists them.  There is one lemma for each thing that can happen to a handle:
it is asked, offered a value, cancelled, admitted to a registry, told an outcome late, or its
sink ends.  What all stories have in common is read off the list (`Story.wellTold`): nothing is
told twice, and nothing before its cause.

Of a sink the log tells who has joined its registry and who has left it.  As long as the sink is
open, the difference is the number of those who wait; the entry of its end has that number, and
is the last one of the sink (`Balance`).
-/
import OneShot.Proofs.Order

namespace OneShot

set_option autoImplicit false

variable {α ε : Type}

/-! ## The log -/

/-- The entry of the log that an event makes. -/
def Event.notice? : Event α ε → Option Notice
  | noticed notice => some notice
  | _ => none

/-- The notices of a run, in order. -/
def log (history : List (Event α ε)) : List Notice := history.filterMap Event.notice?

theorem log_append (before after : List (Event α ε)) :
    log (before ++ after) = log before ++ log after :=
  List.filterMap_append

/-- A call that writes one entry, behind the event that it has begun. -/
theorem log_call {first : Event α ε} (silent : first.notice? = none) (notice : Notice) :
    log [first, .noticed notice] = [notice] := by
  rw [log, List.filterMap_cons_none silent]
  rfl

theorem mem_log {history : List (Event α ε)} {notice : Notice} :
    notice ∈ log history ↔ .noticed notice ∈ history := by
  simp only [log, List.mem_filterMap]
  constructor
  · rintro ⟨event, member, same⟩
    cases event <;> simp_all [Event.notice?]
  · exact fun member => ⟨_, member, rfl⟩

/-- The entry tells of this handle. -/
def Notice.tellsOf (h : HandleRef) : Notice → Bool
  | registered _ g | removed _ g | replaying _ g | demandMet g | cancelled g | valueParked g =>
      g == h
  | _ => false

/-- What a log tells of a handle. -/
def tale (h : HandleRef) (history : List (Event α ε)) : List Notice :=
  (log history).filter (Notice.tellsOf h)

theorem tale_append (h : HandleRef) (before after : List (Event α ε)) :
    tale h (before ++ after) = tale h before ++ tale h after := by
  simp [tale, log_append]

theorem tale_call {first : Event α ε} (silent : first.notice? = none) {notice : Notice}
    {h : HandleRef} (own : ∀ g, notice.tellsOf g = (h == g)) (g : HandleRef) :
    tale g [first, .noticed notice] = if g = h then [notice] else [] := by
  rw [tale, log_call silent]
  by_cases self : g = h
  · simp [own, self]
  · simp [own, self, Ne.symm self]

/-! ## One entry before another -/

/-- Wherever `b` stands in a log, `a` stands before it. -/
def Precedes (a b : Notice) (log : List Notice) : Prop :=
  ∀ before after, log = before ++ b :: after → a ∈ before

@[simp] theorem precedes_nil (a b : Notice) : Precedes a b [] := by
  intro before after eq
  simp at eq

@[simp] theorem precedes_cons {a b c : Notice} {log : List Notice} :
    Precedes a b (c :: log) ↔ c ≠ b ∧ (c = a ∨ Precedes a b log) := by
  constructor
  · intro order
    have other : c ≠ b := by
      rintro rfl
      simpa using order [] log rfl
    refine ⟨other, ?_⟩
    by_cases first : c = a
    · exact .inl first
    · refine .inr fun before after eq => ?_
      have later := order (c :: before) after (by rw [eq]; rfl)
      exact (List.mem_cons.1 later).resolve_left (Ne.symm first)
  · rintro ⟨other, first | order⟩ before after eq
    all_goals
      cases before with
      | nil => exact absurd (List.cons.inj eq).1 other
      | cons d before =>
          obtain ⟨rfl, rest⟩ := List.cons.inj eq
          first
            | exact first ▸ List.mem_cons_self
            | exact List.mem_cons_of_mem _ (order before after rest)

/-- What holds of a selection of a log holds of the log, if what is preceded is selected. -/
theorem Precedes.of_filter {a b : Notice} {log : List Notice} {p : Notice → Bool}
    (order : Precedes a b (log.filter p)) (kept : p b = true) : Precedes a b log := by
  rintro before after rfl
  have selected := order (before.filter p) (after.filter p) (by simp [kept])
  exact (List.mem_filter.1 selected).1

/-! ## The stories -/

/-- What is told of the value of a handle: nothing, as long as there is none or it is told at
once; that it is parked; that it is parked and then met by demand; and last of all that the
handle is cancelled. -/
inductive Takings (h : HandleRef) (phase : Phase) : List Notice → Prop
  | untold (unparked : phase ≠ .parked) (kept : phase ≠ .cancelled) : Takings h phase []
  | parked (parked : phase = .parked) : Takings h phase [.valueParked h]
  | met (served : phase = .served) : Takings h phase [.valueParked h, .demandMet h]
  | forgone (gone : phase = .cancelled) {before : List Notice}
      (early : before = [] ∨ before = [.valueParked h] ∨
        before = [.valueParked h, .demandMet h]) : Takings h phase (before ++ [.cancelled h])

/-- What a log tells of a handle `h` of the sink `s`.  `back` says that its acknowledgment has
returned, `waits` that it stands in the registry. -/
inductive Story (s : SinkRef) (h : HandleRef) (back waits : Prop) (phase : Phase) :
    List Notice → Prop
  | fresh (early : ¬back) (out : ¬waits) (on : phase = .idle ∨ phase = .requested) :
      Story s h back waits phase []
  /-- Cancelled inside its acknowledgment. -/
  | shunned (early : ¬back) (out : ¬waits) (gone : phase = .cancelled) :
      Story s h back waits phase [.cancelled h]
  | waiting (late : back) (here : waits) (on : phase = .idle ∨ phase = .requested) :
      Story s h back waits phase [.registered s h]
  | left (late : back) (out : ¬waits) (gone : phase = .cancelled) :
      Story s h back waits phase [.registered s h, .cancelled h, .removed s h]
  /-- Cancelled inside its acknowledgment, while its sink was open. -/
  | turnedAway (late : back) (out : ¬waits) (gone : phase = .cancelled) :
      Story s h back waits phase [.cancelled h, .registered s h, .removed s h]
  /-- Cancelled inside its acknowledgment, when its sink had ended. -/
  | passedOver (late : back) (out : ¬waits) (gone : phase = .cancelled) :
      Story s h back waits phase [.cancelled h, .replaying s h]
  /-- Its sink has ended, from the registry or before its acknowledgment was back. -/
  | informed {first : Notice} {takings : List Notice} (late : back) (out : ¬waits)
      (how : first = .registered s h ∨ first = .replaying s h)
      (told : Takings h phase takings) : Story s h back waits phase (first :: takings)

namespace Takings

variable {h : HandleRef} {phase : Phase} {takings : List Notice}

theorem of_parked (told : Takings h .parked takings) : takings = [.valueParked h] := by
  cases told with
  | parked _ => rfl
  | untold unparked _ => exact absurd rfl unparked
  | met served => cases served
  | forgone gone _ => cases gone

/-- Nothing is told of a value before there is one. -/
theorem of_empty (told : Takings h phase takings) (empty : phase = .idle ∨ phase = .requested) :
    takings = [] := by
  cases told with
  | untold _ _ => rfl
  | parked other | met other | forgone other _ => simp [other] at empty

theorem cancel (told : Takings h phase takings) (on : phase ≠ .cancelled) :
    Takings h .cancelled (takings ++ [.cancelled h]) := by
  cases told with
  | untold _ _ => exact .forgone rfl (.inl rfl)
  | parked _ => exact .forgone rfl (.inr (.inl rfl))
  | met _ => exact .forgone rfl (.inr (.inr rfl))
  | forgone gone _ => exact absurd gone on

end Takings

namespace Story

variable {s : SinkRef} {h : HandleRef} {back waits back' waits' : Prop} {phase : Phase}
  {told : List Notice}

theorem of_iff (story : Story s h back waits phase told) (returns : back' ↔ back)
    (stands : waits' ↔ waits) : Story s h back' waits' phase told := by
  rw [propext returns, propext stands]
  exact story

/-- Until its acknowledgment is back, a handle can only be cancelled. -/
theorem of_early (story : Story s h back waits phase told) (early : ¬back) :
    ¬waits ∧ ((phase = .idle ∨ phase = .requested) ∧ told = [] ∨
      phase = .cancelled ∧ told = [.cancelled h]) := by
  cases story with
  | fresh _ out on => exact ⟨out, .inl ⟨on, rfl⟩⟩
  | shunned _ out gone => exact ⟨out, .inr ⟨gone, rfl⟩⟩
  | waiting late _ _ | left late _ _ | turnedAway late _ _ | passedOver late _ _
  | informed late _ _ _ => exact absurd late early

/-- A handle that is not cancelled is about to wait, waits, or has left the registry with the
end of its sink. -/
theorem of_kept (story : Story s h back waits phase told) (on : phase ≠ .cancelled) :
    ((phase = .idle ∨ phase = .requested) ∧ ((¬back ∧ ¬waits ∧ told = []) ∨
        (back ∧ waits ∧ told = [.registered s h]))) ∨
      (back ∧ ¬waits ∧ ∃ first takings, (first = .registered s h ∨ first = .replaying s h) ∧
        Takings h phase takings ∧ told = first :: takings) := by
  cases story with
  | fresh early out on => exact .inl ⟨on, .inl ⟨early, out, rfl⟩⟩
  | waiting late here on => exact .inl ⟨on, .inr ⟨late, here, rfl⟩⟩
  | shunned _ _ gone | left _ _ gone | turnedAway _ _ gone | passedOver _ _ gone =>
      exact absurd gone on
  | informed late out how told => exact .inr ⟨late, out, _, _, how, told, rfl⟩

/-! ### Demand and value -/

theorem ask (story : Story s h back waits .idle told) :
    Story s h back waits .requested told := by
  rcases story.of_kept (by simp) with
    ⟨-, ⟨early, out, rfl⟩ | ⟨late, here, rfl⟩⟩ | ⟨late, out, first, takings, how, told, rfl⟩
  · exact .fresh early out (.inr rfl)
  · exact .waiting late here (.inr rfl)
  · obtain rfl := told.of_empty (.inl rfl)
    exact .informed late out how (.untold (by simp) (by simp))

theorem meet (story : Story s h back waits .parked told) :
    Story s h back waits .served (told ++ [.demandMet h]) := by
  rcases story.of_kept (by simp) with ⟨early, -⟩ | ⟨late, out, first, takings, how, told, rfl⟩
  · simp at early
  · obtain rfl := told.of_parked
    exact .informed late out how (.met rfl)

/-- An offer is made to who is back and waits no more. -/
theorem offered (story : Story s h back waits phase told) (late : back) (out : ¬waits)
    (empty : phase = .idle ∨ phase = .requested) :
    ∃ first, (first = .registered s h ∨ first = .replaying s h) ∧ told = [first] := by
  have on : phase ≠ .cancelled := by rcases empty with rfl | rfl <;> simp
  rcases story.of_kept on with
    ⟨-, ⟨early, -, -⟩ | ⟨-, here, -⟩⟩ | ⟨-, -, first, takings, how, told, rfl⟩
  · exact absurd late early
  · exact absurd here out
  · exact ⟨first, how, by rw [told.of_empty empty]⟩

theorem feed (story : Story s h back waits .requested told) (late : back) (out : ¬waits) :
    Story s h back waits .served told := by
  obtain ⟨first, how, rfl⟩ := story.offered late out (.inr rfl)
  exact .informed late out how (.untold (by simp) (by simp))

theorem park (story : Story s h back waits .idle told) (late : back) (out : ¬waits) :
    Story s h back waits .parked (told ++ [.valueParked h]) := by
  obtain ⟨first, how, rfl⟩ := story.offered late out (.inl rfl)
  exact .informed late out how (.parked rfl)

/-! ### Cancellation -/

/-- A handle that is cancelled waits no more, and is told of as removed if it did. -/
theorem cancel [Decidable waits] (story : Story s h back waits phase told)
    (on : phase ≠ .cancelled) :
    Story s h back False .cancelled
      (told ++ .cancelled h :: if waits then [.removed s h] else []) := by
  rcases story.of_kept on with
    ⟨-, ⟨early, out, rfl⟩ | ⟨late, here, rfl⟩⟩ | ⟨late, out, first, takings, how, told, rfl⟩
  · rw [if_neg out]
    exact .shunned early id rfl
  · rw [if_pos here]
    exact .left late id rfl
  · rw [if_neg out]
    exact .informed late id how (told.cancel on)

/-! ### The registry -/

/-- When its sink ends, a handle waits no more. -/
theorem freeze (story : Story s h back waits phase told) : Story s h back False phase told := by
  cases story with
  | fresh early _ on => exact .fresh early id on
  | shunned early _ gone => exact .shunned early id gone
  | waiting late _ on =>
      exact .informed late id (.inl rfl)
        (.untold (by rintro rfl; simp at on) (by rintro rfl; simp at on))
  | left late _ gone => exact .left late id gone
  | turnedAway late _ gone => exact .turnedAway late id gone
  | passedOver late _ gone => exact .passedOver late id gone
  | informed late _ how told => exact .informed late id how told

theorem join (story : Story s h back waits phase told) (early : ¬back)
    (on : phase ≠ .cancelled) : Story s h True True phase (told ++ [.registered s h]) := by
  obtain ⟨-, ⟨empty, rfl⟩ | ⟨gone, -⟩⟩ := story.of_early early
  · exact .waiting trivial trivial empty
  · exact absurd gone on

/-- Who was cancelled inside its acknowledgment leaves the registry as it joins. -/
theorem turnAway (story : Story s h back waits phase told) (early : ¬back)
    (gone : phase = .cancelled) :
    Story s h True False phase (told ++ [.registered s h, .removed s h]) := by
  obtain ⟨-, ⟨empty, -⟩ | ⟨-, rfl⟩⟩ := story.of_early early
  · simp [gone] at empty
  · exact .turnedAway trivial id gone

theorem replay (story : Story s h back waits phase told) (early : ¬back) :
    Story s h True waits phase (told ++ [.replaying s h]) := by
  obtain ⟨out, ⟨empty, rfl⟩ | ⟨gone, rfl⟩⟩ := story.of_early early
  · exact .informed trivial out (.inr rfl)
      (.untold (by rintro rfl; simp at empty) (by rintro rfl; simp at empty))
  · exact .passedOver trivial out gone

end Story

/-! ## What the stories have in common -/

namespace Notice

/-- The handle joins a registry, or is told an outcome late. -/
def enters (h : HandleRef) : Notice → Bool
  | registered _ g | replaying _ g => g == h
  | _ => false

/-- The handle leaves a registry. -/
def departs (h : HandleRef) : Notice → Bool
  | removed _ g => g == h
  | _ => false

theorem tellsOf_of_enters {h : HandleRef} {notice : Notice} (enters : notice.enters h = true) :
    notice.tellsOf h = true := by
  cases notice <;> simp_all [Notice.enters, tellsOf]

theorem tellsOf_of_departs {h : HandleRef} {notice : Notice} (departs : notice.departs h = true) :
    notice.tellsOf h = true := by
  cases notice <;> simp_all [Notice.departs, tellsOf]

end Notice

/-- What a log has of a handle: each entry once at most, and none before its cause. -/
structure WellTold (h : HandleRef) (log : List Notice) : Prop where
  removed_once : log.countP (Notice.departs h) ≤ 1
  removed_registered : ∀ s, Precedes (.registered s h) (.removed s h) log
  removed_cancelled : ∀ s, Precedes (.cancelled h) (.removed s h) log
  cancelled_once : log.count (.cancelled h) ≤ 1
  parked_once : log.count (.valueParked h) ≤ 1
  met_once : log.count (.demandMet h) ≤ 1
  met_parked : Precedes (.valueParked h) (.demandMet h) log

theorem countP_told {h : HandleRef} {log : List Notice} {p : Notice → Bool}
    (own : ∀ notice : Notice, p notice = true → notice.tellsOf h = true) :
    (log.filter (Notice.tellsOf h)).countP p = log.countP p := by
  rw [List.countP_filter]
  refine List.countP_congr fun notice _ => ?_
  simpa using own notice

/-- What a log tells of a handle is all that counts. -/
theorem WellTold.of_told {h : HandleRef} {log : List Notice}
    (told : WellTold h (log.filter (Notice.tellsOf h))) : WellTold h log := by
  have same : ∀ {notice : Notice}, notice.tellsOf h = true →
      (log.filter (Notice.tellsOf h)).count notice = log.count notice :=
    fun own => List.count_filter own
  have removed : ∀ s, (Notice.removed s h).tellsOf h = true := by simp [Notice.tellsOf]
  have cancelled : (Notice.cancelled h).tellsOf h = true := by simp [Notice.tellsOf]
  have parked : (Notice.valueParked h).tellsOf h = true := by simp [Notice.tellsOf]
  have met : (Notice.demandMet h).tellsOf h = true := by simp [Notice.tellsOf]
  exact ⟨countP_told (fun _ => Notice.tellsOf_of_departs) ▸ told.removed_once,
    fun s => (told.removed_registered s).of_filter (removed s),
    fun s => (told.removed_cancelled s).of_filter (removed s),
    same cancelled ▸ told.cancelled_once, same parked ▸ told.parked_once,
    same met ▸ told.met_once, told.met_parked.of_filter met⟩

namespace Story

variable {s : SinkRef} {h : HandleRef} {back waits : Prop} {phase : Phase} {told : List Notice}

/-- **No story tells anything twice, or before its cause.** -/
theorem wellTold (story : Story s h back waits phase told) : WellTold h told := by
  cases story with
  | fresh | shunned | waiting => constructor <;> simp [Notice.departs]
  | left | turnedAway | passedOver => constructor <;> simp [Notice.departs, Classical.em]
  | informed _ _ how told =>
      rcases how with rfl | rfl <;> cases told with
      | untold | parked | met => constructor <;> simp [Notice.departs]
      | forgone _ early =>
          rcases early with rfl | rfl | rfl <;> constructor <;> simp [Notice.departs]

/-- **Who is back has joined a registry or was told late**, and not both. -/
theorem entered (story : Story s h back waits phase told) (late : back) :
    told.countP (Notice.enters h) = 1 ∧ (.registered s h ∈ told ∨ .replaying s h ∈ told) := by
  cases story with
  | fresh early | shunned early => exact absurd late early
  | waiting | left | turnedAway | passedOver => simp [Notice.enters]
  | informed _ _ how told =>
      rcases how with rfl | rfl <;> cases told with
      | untold | parked | met => simp [Notice.enters]
      | forgone _ early => rcases early with rfl | rfl | rfl <;> simp [Notice.enters]

theorem unentered (story : Story s h back waits phase told) (early : ¬back) :
    told.countP (Notice.enters h) = 0 := by
  obtain ⟨-, ⟨-, rfl⟩ | ⟨-, rfl⟩⟩ := story.of_early early <;> rfl

end Story

/-! ## One sink -/

namespace Notice

/-- A handle joins the registry of this sink. -/
def joins (s : SinkRef) : Notice → Bool
  | registered t _ => t == s
  | _ => false

/-- A handle leaves the registry of this sink. -/
def leaves (s : SinkRef) : Notice → Bool
  | removed t _ => t == s
  | _ => false

/-- This sink ends. -/
def ends (s : SinkRef) : Notice → Bool
  | terminated t _ _ => t == s
  | _ => false

/-- The entry tells of the registry of this sink. -/
def countsFor (s : SinkRef) : Notice → Bool
  | registered t _ | removed t _ | terminated t _ _ => t == s
  | _ => false

theorem apart_of_countsFor {s : SinkRef} {notice : Notice} (apart : notice.countsFor s = false) :
    notice.joins s = false ∧ notice.leaves s = false ∧ notice.ends s = false := by
  cases notice <;> simp_all [countsFor, joins, leaves, ends]

end Notice

/-- How a log accounts for the registry of a sink.  As long as it is open, it has as many as have
joined and not left.  The entry of its end has their number, and nothing follows it. -/
inductive Balance (s : SinkRef) : Registry α ε → List Notice → Prop
  | running {hs : List HandleRef} {log : List Notice}
      (open_ : ∀ entry ∈ log, entry.ends s = false)
      (even : log.countP (Notice.joins s) = log.countP (Notice.leaves s) + hs.length) :
      Balance s (.live hs) log
  | ended {o : Outcome α ε} {k : Nat} {before after : List Notice}
      (open_ : ∀ entry ∈ before, entry.ends s = false)
      (even : before.countP (Notice.joins s) = before.countP (Notice.leaves s) + k)
      (last : ∀ entry ∈ after, entry.countsFor s = false) :
      Balance s (.frozen o) (before ++ .terminated s o.termination k :: after)

namespace Balance

variable {s : SinkRef} {h : HandleRef} {r : Registry α ε} {hs : List HandleRef}
  {o : Outcome α ε} {log more : List Notice}

/-- Entries of other sinks, and of none, count for nothing. -/
theorem pass (balance : Balance s r log) (others : ∀ entry ∈ more, entry.countsFor s = false) :
    Balance s r (log ++ more) := by
  have apart := fun entry member => Notice.apart_of_countsFor (others entry member)
  cases balance with
  | running open_ even =>
      have none_ : more.countP (Notice.joins s) = 0 ∧ more.countP (Notice.leaves s) = 0 := by
        simp only [List.countP_eq_zero, Bool.not_eq_true]
        exact ⟨fun entry member => (apart entry member).1,
          fun entry member => (apart entry member).2.1⟩
      refine .running ?_ (by simpa [List.countP_append, none_.1, none_.2] using even)
      exact List.forall_mem_append.2 ⟨open_, fun entry member => (apart entry member).2.2⟩
  | ended open_ even last =>
      rw [List.append_assoc, List.cons_append]
      exact .ended open_ even (List.forall_mem_append.2 ⟨last, others⟩)

theorem join (balance : Balance s (.live hs : Registry α ε) log) (h : HandleRef) :
    Balance s (.live (hs ++ [h]) : Registry α ε) (log ++ [.registered s h]) := by
  cases balance with
  | running open_ even =>
      refine .running (List.forall_mem_append.2 ⟨open_, by simp [Notice.ends]⟩) ?_
      simp [Notice.joins, Notice.leaves, even, Nat.add_assoc]

theorem leave (balance : Balance s r log) (member : h ∈ r.handles) :
    Balance s (r.erase h) (log ++ [.removed s h]) := by
  cases balance with
  | @running hs _ open_ even =>
      have here : h ∈ hs := member
      have fewer : (hs.erase h).length + 1 = hs.length := by
        rw [List.length_erase_of_mem here]
        exact Nat.sub_add_cancel (List.length_pos_of_mem here)
      refine .running (List.forall_mem_append.2 ⟨open_, by simp [Notice.ends]⟩) ?_
      simp [Notice.joins, Notice.leaves, even]
      omega
  | ended => cases member

theorem close (balance : Balance s (.live hs : Registry α ε) log) (o : Outcome α ε) :
    Balance s (.frozen o) (log ++ [.terminated s o.termination hs.length]) := by
  cases balance with
  | running open_ even => exact .ended open_ even (by simp)

end Balance

end OneShot
