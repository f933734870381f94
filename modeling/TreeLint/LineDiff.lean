namespace TreeLint

/-- One step on the way from one list to another. Items are inserted in blocks. -/
inductive Edit (α : Type) where
  | keep (a : α)
  | delete (a : α)
  | insert (block : List α)
deriving DecidableEq, Repr

namespace Edit

variable {α : Type}

/-- The list that a script starts from. -/
def before : List (Edit α) → List α
  | [] => []
  | keep a :: es => a :: before es
  | delete a :: es => a :: before es
  | insert _ :: es => before es

/-- The list that a script leads to. -/
def after : List (Edit α) → List α
  | [] => []
  | keep a :: es => a :: after es
  | delete _ :: es => after es
  | insert block :: es => block ++ after es

end Edit

namespace LineDiff

/-- The lines of a text with their ends: a line feed, a carriage return, or both in this order. -/
def lines : List Char → List (List Char)
  | [] => []
  | '\r' :: '\n' :: cs => ['\r', '\n'] :: lines cs
  | c :: cs =>
    if c = '\r' ∨ c = '\n' then [c] :: lines cs
    else
      match lines cs with
      | l :: ls => (c :: l) :: ls
      | [] => [[c]]

variable {α : Type} [DecidableEq α]

/-- How far two lists agree from their start. -/
def agreement : List α → List α → Nat
  | a :: as, b :: bs => if a = b then agreement as bs + 1 else 0
  | _, _ => 0

/-- The furthest points that a search has reached with so many edits. On each diagonal it is the
number of items passed in the first list; a diagonal is the difference of the items passed in both,
and those that so many edits can reach stand in descending order, two apart. -/
structure Frontier where
  edits : Nat
  reached : List Nat
deriving DecidableEq, Repr

namespace Frontier

/-- The diagonals of a frontier, in its order. -/
def diagonals (edits : Nat) : List Int :=
  (List.range (edits + 1)).map fun (i : Nat) => (edits : Int) - 2 * i

def at? (f : Frontier) (diagonal : Int) : Option Nat :=
  if diagonal.natAbs ≤ f.edits then f.reached[((f.edits - diagonal) / 2).toNat]? else none

/-- Where one more edit leads from the points reached: on the outer diagonals there is one way, on
the others the one that passes more of the first list. -/
def steps : List Nat → List Nat
  | [] => [0]
  | x :: xs => (x + 1) :: inner x xs
where
  inner : Nat → List Nat → List Nat
  | x, [] => [x]
  | x, y :: ys => (if y < x then x else y + 1) :: inner y ys

/-- The starts of the next frontier, each with its diagonal. -/
def starts : Option Frontier → List (Int × Nat)
  | none => [(0, 0)]
  | some f => (diagonals (f.edits + 1)).zip (steps f.reached)

def size : Option Frontier → Nat
  | none => 0
  | some f => f.edits + 1

/-- The next frontier: each start, moved on along the items that agree. -/
def next (as bs : List α) (f : Option Frontier) : Frontier :=
  ⟨size f, (starts f).map fun (diagonal, x) =>
    x + agreement (as.drop x) (bs.drop (x - diagonal).toNat)⟩

end Frontier

/-- Searches from both ends, one edit at a time in turn, for a point where the two searches meet.
The point is given by the items passed in both lists. -/
def middleWithin? (as bs : List α) :
    Nat → Option Frontier → Option Frontier → Option (Nat × Nat)
  | 0, _, _ => none
  | n + 1, forward, backward =>
    let total : Int := as.length - bs.length
    let odd := total % 2 ≠ 0
    let nextForward := Frontier.next as bs forward
    let meetsForward : Option (Nat × Nat) :=
      if odd then
        ((Frontier.starts forward).zip nextForward.reached).findSome? fun ((diagonal, start), x) => do
          let y ← (← backward).at? (total - diagonal)
          if as.length ≤ x + y then some (start, (start - diagonal).toNat) else none
      else
        none
    match meetsForward with
    | some point => some point
    | none =>
      let nextBackward := Frontier.next as.reverse bs.reverse backward
      let meetsBackward : Option (Nat × Nat) :=
        if odd then none
        else
          ((Frontier.starts backward).zip nextBackward.reached).findSome? fun ((diagonal, _), x) => do
            let y ← nextForward.at? (total - diagonal)
            if as.length ≤ x + y then
              some (as.length - x, bs.length - (x - diagonal).toNat)
            else
              none
      match meetsBackward with
      | some point => some point
      | none => middleWithin? as bs n (some nextForward) (some nextBackward)

def middle? (as bs : List α) : Option (Nat × Nat) :=
  middleWithin? as bs ((as.length + bs.length + 1) / 2 + 1) none none

/-- The script that keeps nothing. -/
def replacement (as bs : List α) : List (Edit α) :=
  as.map .delete ++ if bs.isEmpty then [] else [.insert bs]

/-- A shortest script from one list to another, which finds the middle of the way and divides the
lists there, in at most so many steps. -/
def scriptWithin : Nat → List α → List α → List (Edit α)
  | 0, as, bs => replacement as bs
  | n + 1, as, bs =>
    let head := agreement as bs
    let as' := as.drop head
    let bs' := bs.drop head
    let tail := agreement as'.reverse bs'.reverse
    let as'' := as'.take (as'.length - tail)
    let bs'' := bs'.take (bs'.length - tail)
    let middle :=
      if as''.isEmpty || bs''.isEmpty then replacement as'' bs''
      else
        match middle? as'' bs'' with
        | some (x, y) =>
          scriptWithin n (as''.take x) (bs''.take y) ++ scriptWithin n (as''.drop x) (bs''.drop y)
        | none => replacement as'' bs''
    (as.take head).map .keep ++ middle ++ (as'.drop (as'.length - tail)).map .keep

def script (as bs : List α) : List (Edit α) := scriptWithin (as.length + bs.length + 1) as bs

/-- A script divided around a block of insertions, what comes before it in reverse. -/
structure Slot (α : Type) where
  before : List (Edit α)
  block : List α
  after : List (Edit α)

/-- Moves a block up past deletions and past kept items that its last item equals, and joins it with
the blocks that it comes to. -/
def slideUp (before : List (Edit α)) (block : List α) (after : List (Edit α)) : Slot α :=
  match before with
  | [] => ⟨[], block, after⟩
  | .insert other :: rest => slideUp rest (other ++ block) after
  | .delete a :: rest => slideUp rest block (.delete a :: after)
  | .keep a :: rest =>
    if block.getLast? = some a then slideUp rest (a :: block.dropLast) (.keep a :: after)
    else ⟨.keep a :: rest, block, after⟩

/-- Moves a block down, by the same rules. -/
def slideDown (before : List (Edit α)) (block : List α) (after : List (Edit α)) : Slot α :=
  match after with
  | [] => ⟨before, block, []⟩
  | .insert other :: rest => slideDown before (block ++ other) rest
  | .delete a :: rest => slideDown (.delete a :: before) block rest
  | .keep a :: rest =>
    if block.head? = some a then slideDown (.keep a :: before) (block.tail ++ [a]) rest
    else ⟨before, block, .keep a :: rest⟩

/-- Moves each block up and then down as far as it goes, in at most so many steps. -/
def settleWithin : Nat → List (Edit α) → List (Edit α) → List (Edit α)
  | 0, before, after => before.reverse ++ after
  | _, before, [] => before.reverse
  | n + 1, before, .insert block :: after =>
    let up := slideUp before block after
    let down := slideDown up.before up.block up.after
    settleWithin n (.insert down.block :: down.before) down.after
  | n + 1, before, e :: after => settleWithin n (e :: before) after

/-- A block that ends up higher than it was has been joined with another, so that the edits below it
are passed again less often than there are blocks. -/
def settle (es : List (Edit α)) : List (Edit α) :=
  settleWithin ((es.length + 1) * es.length) [] es

/-- Of the edits between two kept items, the deletions come first, and one block of insertions
follows. -/
def deletionsFirst (es : List (Edit α)) : List (Edit α) := go [] [] es
where
  go (deleted inserted : List α) : List (Edit α) → List (Edit α)
  | [] => replacement deleted inserted
  | .delete a :: es => go (deleted ++ [a]) inserted es
  | .insert block :: es => go deleted (inserted ++ block) es
  | .keep a :: es => replacement deleted inserted ++ .keep a :: go [] [] es

/-- The edits that lead from the lines of one text to those of another. -/
def between (before after : String) : List (Edit (List Char)) :=
  deletionsFirst (settle (script (lines before.toList) (lines after.toList)))

end LineDiff

end TreeLint
