/-! Depth in parentheses. From the left it gives the balance of a text, the end of a group and the commas between
arguments, and a closing parenthesis without an open one leaves it at zero. From the right it gives the places outside
all parentheses. -/
namespace Formula

def depthAfter (depth : Nat) (c : Char) : Nat :=
  if c = '(' then depth + 1 else if c = ')' then depth - 1 else depth

def depthOf (depth : Nat) (cs : List Char) : Nat := cs.foldl depthAfter depth

def balancedFrom : (depth : Nat) → List Char → Bool
  | depth, [] => depth == 0
  | 0, ')' :: _ => false
  | depth, c :: cs => balancedFrom (depthAfter depth c) cs

def balanced (cs : List Char) : Bool := balancedFrom 0 cs

/- The place of the first closing parenthesis that closes nothing, or of the last character when a parenthesis
stays open. -/
def imbalanceFrom (depth position : Nat) : List Char → Option Nat
  | [] => if depth = 0 then none else some (position - 1)
  | c :: cs =>
    if c = ')' ∧ depth = 0 then some position
    else imbalanceFrom (depthAfter depth c) (position + 1) cs

def imbalance? (cs : List Char) : Option Nat := imbalanceFrom 0 0 cs

/- Cuts a text at the parenthesis that closes one opened in front of it and `depth` more. -/
def splitClose? (depth : Nat) : List Char → Option (List Char × List Char)
  | [] => none
  | c :: cs =>
    if c = ')' ∧ depth = 0 then some ([], cs)
    else (splitClose? (depthAfter depth c) cs).map fun (inner, rest) => (c :: inner, rest)

def splitCommas (depth : Nat) : List Char → List Char × List (List Char)
  | [] => ([], [])
  | c :: cs =>
    let (piece, pieces) := splitCommas (depthAfter depth c) cs
    if c = ',' ∧ depth = 0 then ([], piece :: pieces) else (c :: piece, pieces)

/- The pieces between the parentheses of a call. Nothing between them makes no piece, not an empty one. -/
def splitArguments (inner : List Char) : List (List Char) :=
  if inner = [] then [] else
    let (piece, pieces) := splitCommas 0 inner
    piece :: pieces

/- Where the arguments lie, from the one that began at `start`, in a text that goes on at `position`. -/
def argumentRangesFrom (depth start position : Nat) : List Char → List (Nat × Nat)
  | [] => [(start, position)]
  | c :: cs =>
    if c = ',' ∧ depth = 0 then (start, position) :: argumentRangesFrom 0 (position + 1) (position + 1) cs
    else argumentRangesFrom (depthAfter depth c) start (position + 1) cs

def argumentRanges (cs : List Char) (first last : Nat) : List (Nat × Nat) :=
  if first = last then [] else argumentRangesFrom 0 first first (cs.extract first last)

def joinCommas (pieces : List (List Char)) : List Char := [','].intercalate pieces

def commaEnded : List (List Char) → Nat
  | [] => 0
  | piece :: pieces => piece.length + 1 + commaEnded pieces

theorem imbalanceNone (depth position : Nat) (cs : List Char) :
    imbalanceFrom depth position cs = none ↔ balancedFrom depth cs = true := by
  induction cs generalizing depth position with
  | nil => simp [imbalanceFrom, balancedFrom]
  | cons c cs ih =>
    by_cases close : c = ')' ∧ depth = 0
    · obtain ⟨rfl, rfl⟩ := close
      simp [imbalanceFrom, balancedFrom]
    · rw [imbalanceFrom, if_neg close, ih]
      cases depth with
      | zero => simp only [and_true] at close; simp [balancedFrom, close]
      | succ depth => rw [balancedFrom]; simp

theorem imbalanceBalanced (cs : List Char) : imbalance? cs = none ↔ balanced cs = true :=
  imbalanceNone 0 0 cs

theorem splitCloseText {depth : Nat} {cs inner rest : List Char} (h : splitClose? depth cs = some (inner, rest)) :
    inner ++ ')' :: rest = cs := by
  induction cs generalizing depth inner with
  | nil => simp [splitClose?] at h
  | cons c cs ih =>
    rw [splitClose?] at h
    split at h
    · rename_i close
      obtain ⟨rfl, -⟩ := close
      cases h
      rfl
    · simp only [Option.map_eq_some_iff, Prod.mk.injEq] at h
      obtain ⟨⟨inner', rest'⟩, found, rfl, rfl⟩ := h
      simp [ih found]

theorem splitCommasText (depth : Nat) (cs : List Char) :
    joinCommas ((splitCommas depth cs).1 :: (splitCommas depth cs).2) = cs := by
  induction cs generalizing depth with
  | nil => rfl
  | cons c cs ih =>
    have tail := ih (depthAfter depth c)
    rw [splitCommas]
    rcases hs : splitCommas (depthAfter depth c) cs with ⟨piece, pieces⟩
    rw [hs] at tail
    by_cases comma : c = ',' ∧ depth = 0
    · obtain ⟨rfl, rfl⟩ := comma
      simpa [joinCommas, List.intercalate] using tail
    · simp only [comma, if_false]
      cases pieces with
      | nil => simpa [joinCommas, List.intercalate] using tail
      | cons next pieces => simpa [joinCommas, List.intercalate] using tail

theorem splitArgumentsText (inner : List Char) : joinCommas (splitArguments inner) = inner := by
  by_cases empty : inner = []
  · subst empty; rfl
  · simpa [splitArguments, empty] using splitCommasText 0 inner

theorem joinCommasLength (piece : List Char) (pieces : List (List Char)) :
    (joinCommas (piece :: pieces)).length + 1 = commaEnded (piece :: pieces) := by
  induction pieces generalizing piece with
  | nil => simp [joinCommas, commaEnded]
  | cons next pieces ih =>
    have tail := ih next
    simp only [joinCommas, List.intercalate, List.intersperse, List.flatten_cons, List.length_append,
      commaEnded] at tail ⊢
    simp only [List.length_cons, List.length_nil]
    omega

/- One character of a text with the text before it, nearest first, and the text after it. -/
structure Cut where
  before : List Char
  symbol : Char
  after : List Char
  deriving DecidableEq, Repr

namespace Cut

def text (cut : Cut) : List Char := cut.before.reverse ++ cut.symbol :: cut.after

def position (cut : Cut) : Nat := cut.before.length

end Cut

def depthBefore (depth : Nat) (c : Char) : Nat :=
  if c = ')' then depth + 1 else if c = '(' then depth - 1 else depth

def isParenthesis (c : Char) : Bool := c = '(' || c = ')'

def cutsFrom (depth : Nat) : (before after : List Char) → List Cut
  | [], _ => []
  | c :: before, after =>
    let further := cutsFrom (depthBefore depth c) before (c :: after)
    if isParenthesis c || depth != 0 then further else ⟨before, c, after⟩ :: further

def topCuts (cs : List Char) : List Cut := cutsFrom 0 cs.reverse []

theorem cutsFromText {depth : Nat} {before after : List Char} {cut : Cut}
    (member : cut ∈ cutsFrom depth before after) : cut.text = before.reverse ++ after := by
  induction before generalizing depth after with
  | nil => simp [cutsFrom] at member
  | cons c before ih =>
    simp only [cutsFrom] at member
    split at member
    · simpa using ih member
    · rcases List.mem_cons.mp member with rfl | further
      · simp [Cut.text]
      · simpa using ih further

theorem topCutsText {cs : List Char} {cut : Cut} (member : cut ∈ topCuts cs) : cut.text = cs := by
  simpa using cutsFromText member

end Formula
