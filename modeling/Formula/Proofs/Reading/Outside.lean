import Formula.Proofs.Reading.Balance

/-! Characters outside all parentheses. In a balanced text they are the cuts found from the right, and such a place
of a part is one of the whole. -/
namespace Formula

structure Outside (cs left : List Char) (c : Char) (right : List Char) : Prop where
  text : cs = left ++ c :: right
  before : balanced left = true
  after : balanced right = true
  plain : isParenthesis c = false

namespace Outside
variable {cs x y u v : List Char} {c d : Char}

theorem whole (h : Outside cs x c y) : balanced cs = true := by
  rw [h.text, balancedPlainAppend h.plain h.before]
  exact h.after

theorem member (h : Outside cs x c y) : c ∈ cs := by
  rw [h.text]
  simp

theorem ofBalanced (whole : balanced (x ++ c :: y) = true) (before : balanced x = true)
    (plain : isParenthesis c = false) : Outside (x ++ c :: y) x c y := by
  refine ⟨rfl, before, ?_, plain⟩
  rwa [balancedPlainAppend plain before] at whole

theorem inRight (h : Outside cs x c y) (inner : Outside y u d v) : Outside cs (x ++ c :: u) d v := by
  refine ⟨by rw [h.text, inner.text]; simp, ?_, inner.after, inner.plain⟩
  rw [balancedPlainAppend h.plain h.before]
  exact inner.before

theorem inLeft (h : Outside cs x c y) (inner : Outside x u d v) : Outside cs u d (v ++ c :: y) := by
  refine ⟨by rw [h.text, inner.text]; simp, inner.before, ?_, inner.plain⟩
  rw [balancedPlainAppend h.plain inner.after]
  exact h.after

theorem compare (h : Outside cs x c y) (other : Outside cs u d v) :
    (∃ w, v = w ++ c :: y ∧ Outside x u d w) ∨ (u = x ∧ d = c ∧ v = y) ∨ ∃ w, u = x ++ c :: w ∧ Outside y w d v := by
  have same : x ++ c :: y = u ++ d :: v := h.text.symm.trans other.text
  rcases List.append_eq_append_iff.mp same with ⟨w, rfl, back⟩ | ⟨w, rfl, back⟩
  · cases w with
    | nil =>
      simp only [List.nil_append, List.cons.injEq] at back
      exact .inr (.inl ⟨by simp, back.1.symm, back.2.symm⟩)
    | cons e w =>
      simp only [List.cons_append, List.cons.injEq] at back
      obtain ⟨rfl, rfl⟩ := back
      refine .inr (.inr ⟨w, rfl, rfl, ?_, other.after, other.plain⟩)
      have front := other.before
      rwa [balancedPlainAppend h.plain h.before] at front
  · cases w with
    | nil =>
      simp only [List.nil_append, List.cons.injEq] at back
      exact .inr (.inl ⟨by simp, back.1, back.2⟩)
    | cons e w =>
      simp only [List.cons_append, List.cons.injEq] at back
      obtain ⟨rfl, rfl⟩ := back
      refine .inl ⟨w, rfl, rfl, other.before, ?_, other.plain⟩
      have middle := h.before
      rwa [balancedPlainAppend other.plain other.before] at middle

theorem ofCons (plain : isParenthesis c = false) (h : Outside (c :: y) u d v) :
    (u = [] ∧ d = c ∧ v = y) ∨ ∃ w, u = c :: w ∧ Outside y w d v := by
  have front : Outside (c :: y) [] c y := ofBalanced (x := []) h.whole rfl plain
  rcases front.compare h with ⟨w, -, nothing⟩ | here | later
  · simpa using nothing.text
  · exact .inl here
  · exact .inr later

end Outside

theorem outsideNil {x y : List Char} {c : Char} : ¬ Outside [] x c y := by
  intro h
  simpa using h.text

theorem balancedPrefixDepth {left right : List Char} {m n : Nat} (part : balancedFrom n left = true)
    (whole : balancedFrom m (left ++ right) = true) : n ≤ m := by
  induction left generalizing m n with
  | nil => simp [balancedNil.mp part]
  | cons c left ih =>
    obtain ⟨closeN, restN⟩ := balancedCons.mp part
    obtain ⟨closeM, restM⟩ := balancedCons.mp whole
    have bound := ih restN restM
    rcases parenthesisCases c with rfl | rfl | plain
    · simpa [depthAfter] using bound
    · simp only [depthAfter, Char.reduceEq, if_true, if_false, true_and] at bound closeM closeN
      omega
    · simpa only [depthAfterPlain plain] using bound

theorem outsideGroup {inner right x y : List Char} {c : Char} (h : balanced inner = true)
    (place : Outside ('(' :: inner ++ ')' :: right) x c y) :
    ∃ w, x = '(' :: inner ++ ')' :: w ∧ Outside right w c y := by
  have same := place.text
  rcases List.append_eq_append_iff.mp same with ⟨w, rfl, back⟩ | ⟨w, front, back⟩
  · cases w with
    | nil =>
      simp only [List.nil_append, List.cons.injEq] at back
      obtain ⟨rfl, -⟩ := back
      exact absurd place.plain (by decide)
    | cons e w =>
      simp only [List.cons_append, List.cons.injEq] at back
      obtain ⟨rfl, rfl⟩ := back
      refine ⟨w, rfl, rfl, ?_, place.after, place.plain⟩
      have before := place.before
      rwa [balancedGroup h] at before
  · cases x with
    | nil =>
      simp only [List.nil_append, List.cons_append, List.cons.injEq] at same
      obtain ⟨rfl, -⟩ := same
      exact absurd place.plain (by decide)
    | cons e x =>
      simp only [List.cons_append, List.cons.injEq] at front
      obtain ⟨rfl, rfl⟩ := front
      have opened := place.before
      rw [balanced, balancedOpen] at opened
      exact absurd (balancedPrefixDepth opened h) (by omega)

theorem outsidePlain {cs x y : List Char} {c : Char} (plain : ∀ d ∈ cs, isParenthesis d = false)
    (text : cs = x ++ c :: y) : Outside cs x c y := by
  subst text
  refine ⟨rfl, balancedOfPlain ?_, balancedOfPlain ?_, plain c (by simp)⟩
  · intro d member
    exact plain d (by simp [member])
  · intro d member
    exact plain d (by simp [member])

theorem outsidePlainAppend {name rest x y : List Char} {c : Char} (plain : ∀ d ∈ name, isParenthesis d = false)
    (place : Outside (name ++ rest) x c y) : c ∈ name ∨ ∃ w, x = name ++ w ∧ Outside rest w c y := by
  rcases List.append_eq_append_iff.mp place.text with ⟨w, rfl, back⟩ | ⟨w, rfl, back⟩
  · refine .inr ⟨w, rfl, back, ?_, place.after, place.plain⟩
    exact balancedRight place.before (balancedOfPlain plain)
  · cases w with
    | nil => exact .inr ⟨[], by simp, by simpa using back.symm, rfl, place.after, place.plain⟩
    | cons e w =>
      simp only [List.cons_append, List.cons.injEq] at back
      exact .inl (by simp [back.1])

def Cut.behind (cut : Cut) (front : List Char) : Cut := { cut with before := cut.before ++ front }

theorem cutsFromAppend (depth : Nat) (b front after : List Char) : cutsFrom depth (b ++ front) after =
    (cutsFrom depth b after).map (·.behind front) ++
      cutsFrom (b.foldl depthBefore depth) front (b.reverse ++ after) := by
  induction b generalizing depth after with
  | nil => rfl
  | cons c b ih =>
    simp only [List.cons_append, cutsFrom, ih, List.foldl_cons, List.reverse_cons, List.append_assoc,
      List.nil_append]
    split
    · rfl
    · simp [Cut.behind]

/- The cuts behind a place outside are those of the text behind it, then comes the cut at the place. -/
theorem topCutsAt {cs x y : List Char} {c : Char} (h : Outside cs x c y) :
    topCuts cs =
      (topCuts y).map (·.behind (c :: x.reverse)) ++ ⟨x.reverse, c, y⟩ :: cutsFrom 0 x.reverse (c :: y) := by
  have order : cs.reverse = y.reverse ++ c :: x.reverse := by simp [h.text]
  have plainBefore : depthBefore 0 c = 0 := by simp [depthBefore, plainNotOpen h.plain, plainNotClose h.plain]
  rw [topCuts, order, cutsFromAppend, depthFromRight h.after, List.reverse_reverse, List.append_nil, topCuts]
  simp [cutsFrom, h.plain, plainBefore]

theorem cutsFromPlace {depth : Nat} {b after : List Char} {cut : Cut} (member : cut ∈ cutsFrom depth b after) :
    ∃ nearer, b = nearer ++ cut.symbol :: cut.before ∧ cut.after = nearer.reverse ++ after ∧
      nearer.foldl depthBefore depth = 0 ∧ isParenthesis cut.symbol = false := by
  induction b generalizing depth after with
  | nil => simp [cutsFrom] at member
  | cons c b ih =>
    simp only [cutsFrom] at member
    split at member
    · obtain ⟨nearer, rfl, back, level, plain⟩ := ih member
      exact ⟨c :: nearer, rfl, by simp [back], level, plain⟩
    · rename_i taken
      simp only [Bool.or_eq_true, bne_iff_ne, ne_eq, not_or, Bool.not_eq_true, Decidable.not_not] at taken
      rcases List.mem_cons.mp member with rfl | further
      · exact ⟨[], rfl, rfl, taken.2, taken.1⟩
      · obtain ⟨nearer, rfl, back, level, plain⟩ := ih further
        exact ⟨c :: nearer, rfl, by simp [back], level, plain⟩

theorem memTopCuts {cs : List Char} {cut : Cut} (whole : balanced cs = true) :
    cut ∈ topCuts cs ↔ Outside cs cut.before.reverse cut.symbol cut.after := by
  constructor
  · intro member
    obtain ⟨nearer, order, back, level, plain⟩ := cutsFromPlace member
    have text : cs = cut.before.reverse ++ cut.symbol :: nearer.reverse := by
      simpa using congrArg List.reverse order
    rw [text, balanced] at whole
    obtain ⟨depth, tail⟩ := balancedSome whole
    rw [balancedPlain plain] at tail
    have closed := depthFromRight tail
    rw [List.reverse_reverse, level] at closed
    subst closed
    have before : balanced cut.before.reverse = true := by
      refine balancedLeft whole ?_
      rwa [balanced, balancedPlain plain]
    exact ⟨by simpa [back] using text, before, by rw [back, List.append_nil]; exact tail, plain⟩
  · intro place
    rw [topCutsAt place]
    simp

end Formula
