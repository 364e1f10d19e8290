/-
# OneShot.Race.Contest -- contests of threads, and what they count

`n` counting consumers and `n + 1` threads meet on a fresh sink.  A contest says which calls
are made before, and by which thread (`Contest.calls`); a tally sums over the consumers what
they have heard, and counts the handles that are left and the ending calls that have won.

Two sums are left out where they would tell of the schedule: how many terminal signals were
heard where a cancellation races with the end (`Contest.countsTerminal`), and how many values
also where ends of different kinds race (`Contest.countsNext`).

In a round the threads take turns, one move each.
-/
import OneShot.Race.Machine

namespace OneShot.Race

set_option autoImplicit false

inductive Contest
  | subscribe
  | request
  | parked
  | cancel
  | churn
  | terminate
  deriving DecidableEq, Repr

abbrev Contender := Call UInt64 String

namespace Contest

/-- Whether terminal signals are counted. -/
def countsTerminal : Contest → Bool
  | cancel => false
  | _ => true

/-- Whether values are counted. -/
def countsNext : Contest → Bool
  | cancel | terminate => false
  | _ => true

/-- Demand of the counting consumers when they are acknowledged. -/
def consumer : Contest → Consumer
  | request | parked => .silent
  | _ => .asking 1

/-- What happens before the threads start. -/
def before (contest : Contest) (n : Nat) : List Contender :=
  match contest with
  | subscribe => []
  | parked => List.replicate n (.subscribe contest.consumer) ++ [.terminate (.value 42)]
  | _ => List.replicate n (.subscribe contest.consumer)

/-- How often a churning thread subscribes and cancels. -/
def churns : Nat := 10

/-- The calls of thread `i`. -/
def calls (contest : Contest) (n i : Nat) : List Contender :=
  match contest with
  | subscribe => [.subscribe contest.consumer]
  | request => [.request (.shared i) 1]
  | parked => (List.range n).map fun h => .request (.shared h) 1
  | cancel => [.cancel (.shared i)]
  | churn =>
      (List.range churns).flatMap fun k =>
        [.subscribe (.asking 18446744073709551615), .cancel (.made k)]
  | terminate => if i % 2 = 0 then [.terminate (.value 1)] else [.terminate (.error "f")]

/-- The calls of the thread that comes on top. -/
def extra : Contest → List Contender
  | churn => []
  | _ => [.terminate (.value 42)]

/-- The bound on the moves of a round, which ends before it if all threads are done. -/
def moves (n : Nat) : Nat :=
  let limit := 100 * (n + 2) * (churns + 2)
  limit * limit

/-- The machine after one round. -/
def round (contest : Contest) (n : Nat) : Machine UInt64 String :=
  let ready := (Machine.start .fresh [contest.before n]).takeTurns (moves n) 0
  (Machine.start ready.memory
      ((List.range n).map (contest.calls n) ++ [contest.extra])).takeTurns (moves n) 0
    |> fun last => { last with past := last.past ++ ready.past.filter fun
      | .answered _ => false
      | _ => true }

end Contest

/-- The signals that a handle's consumer has heard, oldest first. -/
def heard {α ε : Type} (past : List (Event α ε)) (h : HandleRef) : List (Signal α ε) :=
  past.reverse.filterMap fun
    | .began h' signal => if h' = h then some signal else none
    | _ => none

/-- The sums that a contest reports. -/
structure Tally where
  subscribed : Nat
  next : Nat
  terminal : Nat
  disorder : Nat
  live : Nat
  released : Nat
  winners : Nat
  overDelivered : Nat
  deriving DecidableEq, Repr

namespace Tally

def isNext {α ε : Type} : Signal α ε → Bool
  | .next _ => true
  | _ => false

def isAcknowledgment {α ε : Type} : Signal α ε → Bool
  | .subscribed => true
  | _ => false

def sumOf (ns : List Nat) : Nat := ns.foldl (fun total n => total + n) 0

/-- Signals before the acknowledgment, and values behind a terminal signal. -/
def disorderIn {α ε : Type} (signals : List (Signal α ε)) : Nat :=
  (signals.takeWhile fun s => !isAcknowledgment s).length
    + ((signals.dropWhile fun s => !s.isTerminal).filter isNext).length

/-- What one round counts; the counting consumers are those of the first `n` handles, and
`beforehand` of them were subscribed before the threads started. -/
def ofRound {α ε : Type} (m : Machine α ε) (n beforehand : Nat) : Tally :=
  let signals := (List.range n).map (heard m.past)
  let total (p : Signal α ε → Bool) : Nat := sumOf (signals.map fun s => s.countP p)
  { subscribed := total isAcknowledgment,
    next := total isNext,
    terminal := total Signal.isTerminal,
    disorder := sumOf (signals.map disorderIn),
    live := m.memory.registry.handles.length,
    released := ((List.range beforehand).filter fun h => !m.owned h).length,
    winners := m.past.countP fun
      | .answered won => won
      | _ => false,
    overDelivered :=
      (signals.filter fun s => 1 < s.countP isNext || 1 < s.countP Signal.isTerminal).length }

def times (t : Tally) (rounds : Nat) : Tally :=
  { subscribed := rounds * t.subscribed,
    next := rounds * t.next,
    terminal := rounds * t.terminal,
    disorder := rounds * t.disorder,
    live := rounds * t.live,
    released := rounds * t.released,
    winners := rounds * t.winners,
    overDelivered := rounds * t.overDelivered }

end Tally

/-- The sums over all rounds.  As the threads take turns, the rounds are alike. -/
def Contest.tally (contest : Contest) (n rounds : Nat) : Tally :=
  (Tally.ofRound (contest.round n) n (if contest = .subscribe then 0 else n)).times rounds

end OneShot.Race
