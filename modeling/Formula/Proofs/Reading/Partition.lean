import Mathlib.Data.List.Chain
import Formula.Proofs.Reading.Depth

/-! The pieces of a call as places of the text. They lie one behind another from the first place to the last, with one
comma between each two, and these commas are the ones at depth zero. A piece is read as the text at its place, and
what is wrong with it is reported from there. -/
namespace Formula

def spans (start : Nat) : List (List Char) → List (Nat × Nat)
  | [] => []
  | piece :: pieces => (start, start + piece.length) :: spans (start + piece.length + 1) pieces

def topCommas (cs : List Char) : List Nat :=
  (List.range cs.length).filter fun i => cs[i]? = some ',' ∧ nesting cs i = 0

inductive Separated (cs : List Char) : Nat → Nat → List (Nat × Nat) → Prop where
  | single {first last : Nat} (order : first ≤ last) : Separated cs first last [(first, last)]
  | more {first stop last : Nat} {ranges : List (Nat × Nat)} (order : first ≤ stop) (comma : cs[stop]? = some ',')
      (rest : Separated cs (stop + 1) last ranges) : Separated cs first last ((first, stop) :: ranges)

structure Partition (cs : List Char) (first last : Nat) (ranges : List (Nat × Nat)) : Prop where
  begins : ranges.head?.map Prod.fst = some first
  ends : ranges.getLast?.map Prod.snd = some last
  bounds : ∀ r ∈ ranges, first ≤ r.1 ∧ r.1 ≤ r.2 ∧ r.2 ≤ last
  increasing : ranges.Pairwise fun r s => r.2 < s.1
  adjacent : ranges.IsChain fun r s => s.1 = r.2 + 1 ∧ cs[r.2]? = some ','
  level : ∀ r ∈ ranges, Level (cs.extract r.1 r.2)
  free : ∀ r ∈ ranges, topCommas (cs.extract r.1 r.2) = []
  commas : ranges.dropLast.map Prod.snd = (topCommas (cs.extract first last)).map (first + ·)
  count : ranges.length = (topCommas (cs.extract first last)).length + 1
  joined : joinCommas (ranges.map fun r => cs.extract r.1 r.2) = cs.extract first last

namespace Separated
variable {cs : List Char} {first last : Nat} {ranges : List (Nat × Nat)}

theorem head (h : Separated cs first last ranges) : ∃ stop rest, ranges = (first, stop) :: rest := by
  cases h with
  | single => exact ⟨_, _, rfl⟩
  | more => exact ⟨_, _, rfl⟩

theorem ends (h : Separated cs first last ranges) : ranges.getLast?.map Prod.snd = some last := by
  induction h with
  | single => rfl
  | more order comma rest ih =>
    obtain ⟨stop, others, rfl⟩ := rest.head
    rw [List.getLast?_cons_cons]
    exact ih

theorem bounds (h : Separated cs first last ranges) : ∀ r ∈ ranges, first ≤ r.1 ∧ r.1 ≤ r.2 ∧ r.2 ≤ last := by
  induction h with
  | single order => simpa using order
  | @more first stop last ranges order comma rest ih =>
    intro r member
    have next := ih r
    obtain ⟨stop', others, rfl⟩ := rest.head
    have after := ih (stop + 1, stop') List.mem_cons_self
    rcases List.mem_cons.mp member with rfl | later
    · dsimp only at after ⊢
      omega
    · have inside := next later
      omega

theorem increasing (h : Separated cs first last ranges) : ranges.Pairwise fun r s => r.2 < s.1 := by
  induction h with
  | single => simp
  | more order comma rest ih =>
    refine List.pairwise_cons.mpr ⟨?_, ih⟩
    intro s member
    have after := rest.bounds s member
    dsimp only
    omega

theorem adjacent (h : Separated cs first last ranges) :
    ranges.IsChain fun r s => s.1 = r.2 + 1 ∧ cs[r.2]? = some ',' := by
  induction h with
  | single => simp
  | more order comma rest ih =>
    obtain ⟨stop, others, rfl⟩ := rest.head
    exact ih.cons_cons ⟨rfl, comma⟩

end Separated

section
variable {cs front piece back : List Char} {pieces : List (List Char)}

theorem nestingFront {i : Nat} (inside : i ≤ front.length) (back : List Char) :
    nesting (front ++ back) i = nesting front i := by
  rw [nesting, nesting, List.take_append_of_le_length inside]

theorem nestingBehind (level : balanced front = true) (back : List Char) (i : Nat) :
    nesting (front ++ back) (front.length + i) = nesting back i := by
  have even := (levelBalanced.mpr level).even
  rw [nesting, nesting, List.take_length_add_append, List.count_append, List.count_append]
  omega

theorem topCommasAppend (level : balanced front = true) (back : List Char) :
    topCommas (front ++ back) = topCommas front ++ (topCommas back).map (front.length + ·) := by
  simp only [topCommas, List.length_append, List.range_add, List.filter_append, List.filter_map]
  congr 1
  · apply List.filter_congr
    intro i inside
    rw [List.mem_range] at inside
    rw [List.getElem?_append_left inside, nestingFront inside.le]
  · congr 1
    apply List.filter_congr
    intro i _
    rw [Function.comp_apply, List.getElem?_append_right (Nat.le_add_right _ _), Nat.add_sub_cancel_left,
      nestingBehind level]

theorem topCommasFree (level : balanced piece = true) (free : Unbroken 0 piece) : topCommas piece = [] := by
  rw [topCommas, List.filter_eq_nil_iff]
  intro i _ comma
  obtain ⟨found, top⟩ := of_decide_eq_true comma
  have text := (placeSplit found).1
  have counted := depthNesting level i
  rw [← text] at level
  have front := (levelSides level commaPlain (by omega)).1
  have open_ := free _ _ text.symm
  rw [← balanced, levelBalanced.mp front] at open_
  contradiction

theorem topCommasFirst (level : balanced piece = true) (free : Unbroken 0 piece) (rest : List Char) :
    topCommas (piece ++ ',' :: rest) = piece.length :: (topCommas rest).map (piece.length + 1 + ·) := by
  have single : topCommas [','] = [0] := by decide
  have comma : topCommas ([','] ++ rest) = 0 :: (topCommas rest).map (1 + ·) := by
    rw [topCommasAppend rfl, single]
    rfl
  rw [List.singleton_append] at comma
  rw [topCommasAppend level, topCommasFree level free, comma]
  simp [Nat.add_assoc]

theorem joinedNext {next : List Char} (text : cs = front ++ joinCommas (piece :: next :: pieces) ++ back) :
    cs = (front ++ piece ++ [',']) ++ joinCommas (next :: pieces) ++ back ∧
      (front ++ piece ++ [',']).length = front.length + piece.length + 1 := by
  rw [joinCommasCons] at text
  simp [text, Nat.add_assoc]

theorem spansSeparated (text : cs = front ++ joinCommas (piece :: pieces) ++ back) :
    Separated cs front.length (front.length + (joinCommas (piece :: pieces)).length)
      (spans front.length (piece :: pieces)) := by
  induction pieces generalizing front piece with
  | nil =>
    rw [joinCommasSingle]
    exact .single (Nat.le_add_right _ _)
  | cons next pieces ih =>
    obtain ⟨rest, place⟩ := joinedNext text
    have later := ih rest
    have stop : front.length + piece.length + 1 + (joinCommas (next :: pieces)).length =
        front.length + (joinCommas (piece :: next :: pieces)).length := by
      rw [joinCommasCons, List.length_append, List.length_cons]
      omega
    have comma : cs[front.length + piece.length]? = some ',' := by
      rw [rest, ← List.length_append]
      simp
    rw [place, stop] at later
    exact .more (Nat.le_add_right _ _) comma later

theorem extractAt (front piece back : List Char) :
    (front ++ piece ++ back).extract front.length (front.length + piece.length) = piece := by
  simp [List.extract]

theorem spansExtract (text : cs = front ++ joinCommas pieces ++ back) :
    (spans front.length pieces).map (fun r => cs.extract r.1 r.2) = pieces := by
  induction pieces generalizing front with
  | nil => rfl
  | cons piece pieces ih =>
    rw [spans, List.map_cons]
    cases pieces with
    | nil =>
      rw [joinCommasSingle] at text
      rw [text, extractAt]
      rfl
    | cons next pieces =>
      obtain ⟨rest, place⟩ := joinedNext text
      have later := ih rest
      have here : cs = front ++ piece ++ ([','] ++ joinCommas (next :: pieces) ++ back) := by simp [rest]
      rw [place] at later
      rw [later, here, extractAt]

theorem spansCommas (start : Nat) (each : ∀ p ∈ piece :: pieces, balanced p = true ∧ Unbroken 0 p) :
    (spans start (piece :: pieces)).dropLast.map Prod.snd =
      (topCommas (joinCommas (piece :: pieces))).map (start + ·) := by
  induction pieces generalizing start piece with
  | nil =>
    obtain ⟨level, free⟩ := each piece List.mem_cons_self
    rw [joinCommasSingle, topCommasFree level free]
    rfl
  | cons next pieces ih =>
    obtain ⟨level, free⟩ := each piece List.mem_cons_self
    have later := ih (start + piece.length + 1) fun p member => each p (List.mem_cons_of_mem _ member)
    rw [joinCommasCons, topCommasFirst level free, spans, List.dropLast_cons_of_ne_nil (by simp [spans]),
      List.map_cons, later]
    simp [Nat.add_assoc]

theorem spansLength (start : Nat) (pieces : List (List Char)) : (spans start pieces).length = pieces.length := by
  induction pieces generalizing start with
  | nil => rfl
  | cons piece pieces ih => rw [spans, List.length_cons, ih, List.length_cons]

theorem behindBind {α β : Type} (k : Nat) (outcome : Except SyntaxError α) (f : α → Except SyntaxError β) :
    behind k (outcome >>= f) = behind k outcome >>= fun a => behind k (f a) := by
  cases outcome <;> rfl

theorem readSpans (R : Registry) {start : Nat} {part : Nat × Nat → List Char}
    (parts : (spans start pieces).map part = pieces) : behind start (readArguments R pieces) =
      (spans start pieces).mapM fun r => behind r.1 (readSlice R (part r)) := by
  induction pieces generalizing start with
  | nil =>
    rw [readArgumentsNil]
    rfl
  | cons piece pieces ih =>
    rw [spans, List.map_cons, List.cons.injEq] at parts
    rw [readArgumentsCons, behindBind, spans, List.mapM_cons, parts.1, ← ih parts.2]
    congr 1
    funext e
    rw [behindBind, behindBehind, ← Nat.add_assoc]
    rfl

theorem splitFirst {inner : List Char} (filled : inner ≠ []) :
    ∃ piece pieces, splitArguments inner = piece :: pieces := by
  rw [splitArguments, if_neg filled]
  exact ⟨_, _, rfl⟩

theorem spansNone {start : Nat} {inner : List Char} : spans start (splitArguments inner) = [] ↔ inner = [] := by
  constructor
  · intro none
    by_contra filled
    obtain ⟨piece, pieces, split⟩ := splitFirst filled
    rw [split] at none
    cases none
  · intro empty
    rw [empty]
    rfl

/- The argument that has begun ends with the first piece of what follows. -/
theorem rangesFromSpans (depth start position : Nat) (inner : List Char) :
    argumentRangesFrom depth start position inner = (start, position + (splitCommas depth inner).1.length) ::
      spans (position + (splitCommas depth inner).1.length + 1) (splitCommas depth inner).2 := by
  induction inner generalizing depth start position with
  | nil => rfl
  | cons c inner ih =>
    rw [argumentRangesFrom, splitCommas]
    split
    · rename_i comma
      obtain ⟨rfl, rfl⟩ := comma
      rw [ih]
      rfl
    · rw [ih, List.length_cons, Nat.add_right_comm position 1]
      rfl

theorem extractLength {first last : Nat} (bound : last ≤ cs.length) :
    (cs.extract first last).length = last - first := by
  rw [List.length_take, List.length_drop]
  omega

theorem extractEmpty {first last : Nat} (order : first ≤ last) (bound : last ≤ cs.length) :
    cs.extract first last = [] ↔ first = last := by
  rw [← List.length_eq_zero_iff, extractLength bound]
  omega

theorem rangesSpans {first last : Nat} (order : first ≤ last) (bound : last ≤ cs.length) :
    argumentRanges cs first last = spans first (splitArguments (cs.extract first last)) := by
  rw [argumentRanges, splitArguments]
  by_cases empty : first = last
  · rw [if_pos empty, if_pos ((extractEmpty order bound).mpr empty)]
    rfl
  · rw [if_neg empty, if_neg fun none => empty ((extractEmpty order bound).mp none), rangesFromSpans]
    rfl

theorem partitionSpans {inner : List Char} (text : cs = front ++ inner ++ back) (level : balanced inner = true)
    (filled : inner ≠ []) :
    Partition cs front.length (front.length + inner.length) (spans front.length (splitArguments inner)) := by
  have inside : cs.extract front.length (front.length + inner.length) = inner := by rw [text, extractAt]
  have joined := splitArgumentsText inner
  have each := splitArgumentsPieces level
  obtain ⟨piece, pieces, split⟩ := splitFirst filled
  rw [split] at joined each ⊢
  rw [← joined] at text
  have separated := spansSeparated text
  have parts := spansExtract text
  have commas := spansCommas front.length each
  rw [joined] at separated commas
  have part (r : Nat × Nat) (member : r ∈ spans front.length (piece :: pieces)) :
      balanced (cs.extract r.1 r.2) = true ∧ Unbroken 0 (cs.extract r.1 r.2) := by
    refine each _ ?_
    rw [← parts]
    exact List.mem_map_of_mem member
  have count := congrArg List.length commas
  simp only [List.length_map, List.length_dropLast, spansLength, List.length_cons, Nat.add_sub_cancel] at count
  exact {
    begins := rfl
    ends := separated.ends
    bounds := separated.bounds
    increasing := separated.increasing
    adjacent := separated.adjacent
    level := fun r member => levelBalanced.mpr (part r member).1
    free := fun r member => topCommasFree (part r member).1 (part r member).2
    commas := by rw [inside, commas]
    count := by rw [inside, ← count, spansLength, List.length_cons]
    joined := by rw [parts, inside, joined] }

theorem argumentsPartition {first last : Nat} (order : first ≤ last) (bound : last ≤ cs.length)
    (level : Level (cs.extract first last)) :
    let pieces := splitArguments (cs.extract first last)
    let ranges := argumentRanges cs first last
    ranges = spans first pieces ∧
    (ranges = [] ↔ first = last) ∧ (first < last → Partition cs first last ranges) ∧
    (ranges.map fun r => cs.extract r.1 r.2) = pieces ∧
    ∀ R, behind first (readArguments R pieces) =
      ranges.mapM fun r => behind r.1 (readSlice R (cs.extract r.1 r.2)) := by
  intro pieces ranges
  have spanned : ranges = spans first pieces := rangesSpans order bound
  have place : (cs.take first).length = first := List.length_take_of_le (order.trans bound)
  have behindFirst : cs.extract first last ++ cs.drop last = cs.drop first := by
    have rest : cs.drop last = (cs.drop first).drop (last - first) := by
      rw [List.drop_drop, Nat.add_sub_of_le order]
    rw [rest, List.take_append_drop]
  have text : cs = cs.take first ++ cs.extract first last ++ cs.drop last := by
    rw [List.append_assoc, behindFirst, List.take_append_drop]
  have parts : ((spans first pieces).map fun r => cs.extract r.1 r.2) = pieces := by
    rw [← splitArgumentsText (cs.extract first last)] at text
    have placed := spansExtract text
    rwa [place] at placed
  rw [spanned]
  refine ⟨rfl, spansNone.trans (extractEmpty order bound), fun before => ?_, parts, fun R => readSpans R parts⟩
  have filled : cs.extract first last ≠ [] := fun none => before.ne ((extractEmpty order bound).mp none)
  have partition := partitionSpans text (levelBalanced.mp level) filled
  rwa [place, extractLength bound, Nat.add_sub_of_le order] at partition

/- The first and the last piece are empty. The one between them is no formula, for the comma at its own place. -/
theorem argumentsPartitionEmpty : let cs := "f(,(a,b),)".toList
    let ranges := [(2, 2), (3, 8), (9, 9)]
    2 ≤ 9 ∧ 9 ≤ cs.length ∧ Level (cs.extract 2 9) ∧ 2 < 9 ∧ argumentRanges cs 2 9 = ranges ∧ Partition cs 2 9 ranges ∧
    (ranges.map fun r => cs.extract r.1 r.2) = [[], "(a,b)".toList, []] ∧
    ranges.mapM (fun r => behind r.1 (readSlice .standard (cs.extract r.1 r.2))) = .error (.unexpected ',' 5) := by
  intro cs ranges
  have level : Level (cs.extract 2 9) := levelBalanced.mpr (by decide)
  have pieces : splitArguments (cs.extract 2 9) = [[], "(a,b)".toList, []] := by decide
  have failed : readArguments .standard (splitArguments (cs.extract 2 9)) = .error (.unexpected ',' 3) := by
    decide +kernel
  obtain ⟨-, -, partition, parts, read⟩ := argumentsPartition (by decide : 2 ≤ 9) (by decide) level
  have ranged : argumentRanges cs 2 9 = ranges := by decide
  rw [ranged] at partition parts read
  exact ⟨by decide, by decide, level, by decide, ranged, partition (by decide), parts.trans pieces,
    (read .standard).symm.trans (congrArg (behind 2) failed)⟩

end

end Formula
