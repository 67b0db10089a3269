/-! # Stable sorting with a fallible order

Elements are sorted by a strict order that may fail to compare two of them.  The list is cut into
runs, and neighbouring runs are merged.  Elements that neither precedes the other keep their places,
and the first comparison that fails, in the order in which comparisons are made, is the failure of
the whole.  The main definition is `sort`. -/

namespace RecordQuery
namespace Sorting

variable {α ε : Type}

/-! ### Searching for a boundary

A test that fails on the front of a list and holds from some element on has a boundary: the number
of elements on which it fails.  `bisect` finds the boundary between two bounds by halving.
`gallop` finds a boundary that is expected near the front: it tries elements at growing distances
until one passes, and halves only the last stretch.

A test may fail to give an answer, and then so does the search.  On a list without a boundary the
searches still end; what they return then depends on the elements they try. -/

section searching
variable (test : α → Except ε Bool)

/-- The boundary between two bounds.  Of two elements in the middle the one further to the front is
tried if `near` holds, and the other one if not. -/
def bisect (near : Bool) (xs : List α) (low high : Nat) : Except ε Nat :=
  if low < high then
    let middle := low + (high - low - near.toNat) / 2
    match xs[middle]? with
    | none => .ok low
    | some x => do
      if ← test x then bisect near xs low middle else bisect near xs (middle + 1) high
  else .ok low
termination_by high - low

/-- Tries elements at growing distances, from index `next` on.  Returns the last index that failed,
which is `failed` if none was tried, and the first one that passed, or else the length. -/
def reach (xs : List α) (failed next : Nat) : Except ε (Nat × Nat) :=
  if h : next < xs.length then do
    if ← test xs[next] then return (failed, next) else reach xs next (2 * next + 1)
  else .ok (failed, xs.length)
termination_by xs.length - next

/-- The boundary of a list, looked for from the front. -/
def gallop (near : Bool) : List α → Except ε Nat
  | [] => .ok 0
  | x :: xs => do
    if ← test x then return 0
    else
      let (failed, passed) ← reach test (x :: xs) 0 1
      bisect test near (x :: xs) (failed + 1) passed

end searching

/-! ### Runs

A run is a stretch of a list that is already in order, or that is in strictly descending order and
is turned round.  A run that is shorter than the least length is extended by the elements that
follow it, each of which is inserted after the elements that it is not before. -/

section runs
variable (before : α → α → Except ε Bool)

/-- Continues a run of elements each of which is, or each of which is not, before its predecessor.
Returns the run and the rest. -/
def continueRun (descending : Bool) (last : α) : List α → Except ε (List α × List α)
  | [] => .ok ([], [])
  | x :: xs => do
    if (← before x last) == descending then
      let (run, rest) ← continueRun descending x xs
      return (x :: run, rest)
    else return ([], x :: xs)

/-- The first run in ascending order, and the rest. -/
def firstRun : List α → Except ε (List α × List α)
  | [] => .ok ([], [])
  | [x] => .ok ([x], [])
  | x :: y :: rest => do
    let descending ← before y x
    let (run, rest) ← continueRun before descending y rest
    let run := x :: y :: run
    return (if descending then run.reverse else run, rest)

/-- Inserts elements into a sorted list one after the other. -/
def insertAll (sorted : List α) : List α → Except ε (List α)
  | [] => .ok sorted
  | x :: xs => do
    let index ← bisect (before x) false sorted 0 sorted.length
    insertAll (sorted.take index ++ x :: sorted.drop index) xs

/-- The first run, extended to the least length if enough elements follow it, and the rest. -/
def extendedRun (least : Nat) (xs : List α) : Except ε (List α × List α) := do
  let (run, rest) ← firstRun before xs
  let missing := least - run.length
  return (← insertAll before run (rest.take missing), rest.drop missing)

/-- The least length of a run in a list of the given length: the length is halved until it is below
64, and one is added when a bit was lost on the way. -/
def leastRun (length : Nat) (lost : Bool) : Nat :=
  if length < 64 then length + lost.toNat
  else leastRun (length / 2) (lost || length % 2 == 1)
termination_by length

end runs

/-! ### Merging by leaps

Two sorted neighbours are merged stably: of two elements that neither precedes the other, the one of
the first run comes first.  What lies before the place of the second run's first element, or after
the place of the first run's last element, is where it belongs and takes no part.

Of what is left the shorter run is held, and the merge takes elements from the end at which it is
held: from the front if the first run is shorter, from the back if it is not.  A merge from the
back is a merge from the front of the two runs turned round.

A merge takes element by element until one run has given many in a row, more than its patience, and
then goes by leaps: it looks up how many elements of one run come before the next one of the other,
and takes them all.  When leaps become short it goes back to single steps.  The patience grows with
every return to single steps, shrinks with every round of long leaps, and is handed on from merge
to merge.

Here `wins` says whether an element of the other run comes before one of the held run, and
`mirrored` whether the runs are turned round. -/

/-- From this length on a leap is long.  It is also the patience of the first merge. -/
def longLeap : Nat := 7

/-- What a leap takes, what it leaves of both runs, and how many elements it passes over. -/
structure Leap (α : Type) where
  taken : List α
  held : List α
  other : List α
  passed : Nat

/-- Takes the held elements that come before the first one of the other run, and that one after
them unless at most one held element is left. -/
def leapHeld (wins : α → α → Except ε Bool) (mirrored : Bool) (held : List α) :
    List α → Except ε (Leap α)
  | [] => .ok ⟨[], held, [], 0⟩
  | q :: qs => do
    let passed ← gallop (wins q) mirrored held
    let rest := held.drop passed
    if rest.length ≤ 1 then return ⟨held.take passed, rest, q :: qs, passed⟩
    else return ⟨held.take passed ++ [q], rest, qs, passed⟩

/-- Takes the elements of the other run that come before the first held one, and that one after
them unless the other run is exhausted. -/
def leapOther (wins : α → α → Except ε Bool) (mirrored : Bool) :
    List α → List α → Except ε (Leap α)
  | [], other => .ok ⟨[], [], other, 0⟩
  | p :: ps, other => do
    let passed ← gallop (fun q => do return !(← wins q p)) mirrored other
    let rest := other.drop passed
    if rest.isEmpty then return ⟨other, p :: ps, [], passed⟩
    else return ⟨other.take passed ++ [p], ps, rest, passed⟩

/-- A leap over elements of the held run, or over elements of the other one. -/
def leap (wins : α → α → Except ε Bool) (mirrored overHeld : Bool) (held other : List α) :
    Except ε (Leap α) :=
  if overHeld then leapHeld wins mirrored held other else leapOther wins mirrored held other

/-! ### Interleaving -/

/-- How a merge goes on. -/
inductive Pace where
  /-- By single steps; each run has given so many elements in a row. -/
  | step (heldStreak otherStreak : Nat)
  /-- By rounds of two leaps, one over each run. -/
  | leap

/-- How to go on after a single step. -/
def Pace.afterStep (patience heldStreak otherStreak : Nat) : Pace :=
  if patience ≤ max heldStreak otherStreak then .leap else .step heldStreak otherStreak

/-- How to go on after a round of leaps, and with which patience. -/
def Pace.afterRound (patience passed : Nat) : Pace × Nat :=
  if longLeap ≤ passed then (.leap, max 1 (patience - 1)) else (.step 0 0, patience + 1)

/-- Whether nothing is left to compare: the last held element comes after the whole other run. -/
def isSettled (held other : List α) : Bool := other.isEmpty || held.length ≤ 1

/-- What is left of two runs when nothing is left to compare. -/
def leftover (held other : List α) : List α :=
  match held with
  | [p] => other ++ [p]
  | held => held ++ other

/-- Interleaves two runs, of which the held one ends with an element that comes after the other
run.  Returns the elements and the patience.  `fuel` bounds the steps and rounds, each of which
takes an element. -/
def interleave (wins : α → α → Except ε Bool) (mirrored : Bool) :
    Nat → Pace → Nat → List α → List α → Except ε (List α × Nat)
  | fuel + 1, .step heldStreak otherStreak, patience, p :: p' :: ps, q :: qs => do
    if ← wins q p then
      let pace := Pace.afterStep patience 0 (otherStreak + 1)
      let (rest, patience) ← interleave wins mirrored fuel pace patience (p :: p' :: ps) qs
      return (q :: rest, patience)
    else
      let pace := Pace.afterStep patience (heldStreak + 1) 0
      let (rest, patience) ← interleave wins mirrored fuel pace patience (p' :: ps) (q :: qs)
      return (p :: rest, patience)
  | fuel + 1, .leap, patience, p :: p' :: ps, q :: qs => do
    let first ← leap wins mirrored (!mirrored) (p :: p' :: ps) (q :: qs)
    if isSettled first.held first.other then
      return (first.taken ++ leftover first.held first.other, patience)
    else
      let second ← leap wins mirrored mirrored first.held first.other
      let taken := first.taken ++ second.taken
      if isSettled second.held second.other then
        return (taken ++ leftover second.held second.other, patience)
      else
        let (pace, patience) := Pace.afterRound patience (max first.passed second.passed)
        let (rest, patience) ← interleave wins mirrored fuel pace patience second.held second.other
        return (taken ++ rest, patience)
  | _, _, patience, held, other => .ok (leftover held other, patience)

section sorting
variable (before : α → α → Except ε Bool)

/-! ### Merging -/

/-- Merges two runs from the front.  The second one starts with an element that comes first, the
first one ends with an element that comes last. -/
def mergeFromFront (patience : Nat) (xs : List α) : List α → Except ε (List α × Nat)
  | [] => .ok (xs, patience)
  | y :: ys => do
    let (rest, patience) ←
      interleave before false (xs.length + ys.length) (.step 0 0) patience xs ys
    return (y :: rest, patience)

/-- Merges two runs from the back, under the same conditions. -/
def mergeFromBack (patience : Nat) (xs ys : List α) : Except ε (List α × Nat) :=
  match xs.reverse with
  | [] => .ok (ys, patience)
  | x :: xs => do
    let (rest, patience) ← interleave (fun q p => before p q) true (xs.length + ys.length)
      (.step 0 0) patience ys.reverse xs
    return ((x :: rest).reverse, patience)

/-- Merges two neighbouring runs.  Returns the merged run and the patience. -/
def merge (patience : Nat) (xs ys : List α) : Except ε (List α × Nat) :=
  match ys.head? with
  | none => .ok (xs, patience)
  | some y => do
    let start ← gallop (before y) false xs
    let left := xs.drop start
    match left.getLast? with
    | none => return (xs ++ ys, patience)
    | some x =>
      let stop := ys.length - (← gallop (fun y => before y x) true ys.reverse)
      let right := ys.take stop
      let (merged, patience) ←
        if left.length ≤ right.length then mergeFromFront before patience left right
        else mergeFromBack before patience left right
      return (xs.take start ++ merged ++ ys.drop stop, patience)

/-! ### Sorting

Which runs are merged when follows from the powers of the boundaries between them.  The power of a
boundary is the number of binary digits after which the midpoints of the two runs beside it, as
fractions of the whole list, differ: the fewer, the nearer to the root of a balanced tree of merges.
Runs wait on a stack whose boundaries grow in power towards the top; before a run is pushed, those
at boundaries of greater power than its own are merged.  In the end the stack is merged from the
top, a run that is shorter than both its neighbours' neighbours first. -/

/-- A run that waits to be merged: the index of its first element, its elements, and the power of
the boundary before it. -/
structure Pending (α : Type) where
  start : Nat
  items : List α
  power : Nat

/-- The number of binary digits after which two fractions of twice a length differ. -/
def boundaryPower (length left right : Nat) : Nat :=
  let differ (k : Nat) := left * Nat.pow 2 k / length != right * Nat.pow 2 k / length
  ((List.range length).find? differ).getD length + 1

/-- Merges the runs at the top of a stack while the boundary between them has a power above the
given one.  Returns the stack and the patience. -/
def settle (power patience : Nat) : List (Pending α) → Except ε (List (Pending α) × Nat)
  | top :: below :: rest => do
    if power < top.power then
      let (items, patience) ← merge before patience below.items top.items
      settle power patience (⟨below.start, items, below.power⟩ :: rest)
    else return (top :: below :: rest, patience)
  | stack => .ok (stack, patience)
termination_by stack => stack.length

/-- Merges all runs of a stack. -/
def collapse (patience : Nat) : List (Pending α) → Except ε (List α)
  | top :: middle :: bottom :: rest => do
    if bottom.items.length < top.items.length then
      let (items, patience) ← merge before patience bottom.items middle.items
      collapse patience (top :: ⟨bottom.start, items, bottom.power⟩ :: rest)
    else
      let (items, patience) ← merge before patience middle.items top.items
      collapse patience (⟨middle.start, items, middle.power⟩ :: bottom :: rest)
  | [top, below] => do return (← merge before patience below.items top.items).1
  | [run] => .ok run.items
  | [] => .ok []
termination_by stack => stack.length

/-- Cuts the elements from index `start` on into runs of at least the least length, the last one
excepted, and stacks them.  `length` is that of the whole list, and `fuel` bounds the number of
runs. -/
def stackRuns (length least : Nat) :
    Nat → Nat → Nat → List (Pending α) → List α → Except ε (List (Pending α) × Nat)
  | fuel + 1, start, patience, stack, x :: xs => do
    let (run, rest) ← extendedRun before least (x :: xs)
    let power := match stack with
      | top :: _ => boundaryPower length (top.start + start) (2 * start + run.length)
      | [] => 0
    let (stack, patience) ← settle before power patience stack
    stackRuns length least fuel (start + run.length) patience (⟨start, run, power⟩ :: stack) rest
  | _, _, patience, stack, _ => .ok (stack, patience)

/-- The elements in order, stably. -/
def sort (xs : List α) : Except ε (List α) := do
  let (stack, patience) ←
    stackRuns before xs.length (leastRun xs.length false) xs.length 0 longLeap [] xs
  collapse before patience stack

/-- The elements in descending order; those that neither precedes the other keep their places. -/
def sortDescending (xs : List α) : Except ε (List α) := do
  return (← sort before xs.reverse).reverse

end sorting

end Sorting
end RecordQuery
