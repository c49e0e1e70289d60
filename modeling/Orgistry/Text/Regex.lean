import Mathlib.Data.List.Basic
import Mathlib.Tactic.Common

/-!
# Regular expressions

The expressions of the language without groups to read back.  `Matches` says which part
of a text an expression matches, by what stands before and after it; `ends` computes
these parts, and `test` looks for one.
-/

namespace Orgistry.Text

/-- `\s`: white space and line terminators. -/
def isWhiteSpace (c : Char) : Bool :=
  let n := c.toNat
  (0x9 ≤ n && n ≤ 0xD) || (0x2000 ≤ n && n ≤ 0x200A) ||
    n ∈ [0x20, 0xA0, 0x1680, 0x2028, 0x2029, 0x202F, 0x205F, 0x3000, 0xFEFF]

/-- `\w` -/
def isWord (c : Char) : Bool := c.isAlphanum || c = '_'

inductive Regex
  | empty
  | char (p : Char → Bool)
  | boundary
  | start
  | finish
  | seq (r s : Regex)
  | alt (r s : Regex)
  | star (r : Regex)

/-- The character before what follows `text`. -/
def lastOf (before : Option Char) (text : List Char) : Option Char := text.getLast?.or before

@[simp]
theorem lastOf_nil (before : Option Char) : lastOf before [] = before := rfl

theorem lastOf_append (before : Option Char) (front back : List Char) :
    lastOf before (front ++ back) = lastOf (lastOf before front) back := by
  unfold lastOf
  rw [List.getLast?_append, Option.or_assoc]

theorem lastOf_none (text : List Char) : lastOf none text = text.getLast? := Option.or_none

/-- One match behind the other. -/
inductive Repeats (P : Option Char → List Char → List Char → Prop) :
    Option Char → List Char → List Char → Prop
  | nil {before : Option Char} {after : List Char} : Repeats P before [] after
  | cons {before : Option Char} {front back after : List Char}
      (hfront : P before front (back ++ after))
      (hback : Repeats P (lastOf before front) back after) : Repeats P before (front ++ back) after

/-- The empty matches of a repetition can be left out. -/
theorem Repeats.nil_or_cons {P : Option Char → List Char → List Char → Prop}
    {before : Option Char} {front after : List Char} (h : Repeats P before front after) :
    front = [] ∨ ∃ first rest, front = first ++ rest ∧ first ≠ [] ∧
      P before first (rest ++ after) ∧ Repeats P (lastOf before first) rest after := by
  induction h with
  | nil => exact Or.inl rfl
  | @cons before first back after hfirst hback ih =>
      by_cases hempty : first = []
      · subst hempty
        exact ih
      · exact Or.inr ⟨first, back, rfl, hempty, hfirst, hback⟩

namespace Regex

/-- The expression matches `text` where `before` stands before it and `after` behind. -/
def Matches : Regex → Option Char → List Char → List Char → Prop
  | empty, _, text, _ => text = []
  | char p, _, text, _ => ∃ c, text = [c] ∧ p c
  | boundary, before, text, after => text = [] ∧ before.any isWord ≠ after.head?.any isWord
  | start, before, text, _ => text = [] ∧ before = none
  | finish, _, text, after => text = [] ∧ after = []
  | seq r s, before, text, after => ∃ front back, text = front ++ back ∧
      r.Matches before front (back ++ after) ∧ s.Matches (lastOf before front) back after
  | alt r s, before, text, after => r.Matches before text after ∨ s.Matches before text after
  | star r, before, text, after => Repeats r.Matches before text after

/-- As many matches as there are, each of one character at least. -/
def repeatEnds (step : Option Char → List Char → List (List Char × List Char)) :
    ℕ → Option Char → List Char → List (List Char × List Char)
  | 0, _, text => [([], text)]
  | fuel + 1, before, text =>
      ([], text) :: (step before text).flatMap fun (front, rest) =>
        if front = [] then []
        else (repeatEnds step fuel (lastOf before front) rest).map fun (back, after) =>
          (front ++ back, after)

/-- What the expression matches at the beginning of the text, and what remains. -/
def ends : Regex → Option Char → List Char → List (List Char × List Char)
  | empty, _, text => [([], text)]
  | char _, _, [] => []
  | char p, _, c :: rest => if p c then [([c], rest)] else []
  | boundary, before, text =>
      if before.any isWord = text.head?.any isWord then [] else [([], text)]
  | start, before, text => if before = none then [([], text)] else []
  | finish, _, text => if text = [] then [([], text)] else []
  | seq r s, before, text =>
      (r.ends before text).flatMap fun (front, rest) =>
        (s.ends (lastOf before front) rest).map fun (back, after) => (front ++ back, after)
  | alt r s, before, text => r.ends before text ++ s.ends before text
  | star r, before, text => repeatEnds r.ends text.length before text

def testFrom (r : Regex) : Option Char → List Char → Bool
  | before, [] => !(r.ends before []).isEmpty
  | before, c :: rest => !(r.ends before (c :: rest)).isEmpty || testFrom r (some c) rest

/-- `RegExp.prototype.test` -/
def test (r : Regex) (text : List Char) : Bool := r.testFrom none text

section Ends

variable {before : Option Char} {text front after : List Char}
  {P : Option Char → List Char → List Char → Prop}

/-- By induction on the fuel: repetitions that consume nothing are cut off and not missed. -/
theorem mem_repeatEnds_iff {step : Option Char → List Char → List (List Char × List Char)}
    (hstep : ∀ before text front after,
      (front, after) ∈ step before text ↔ text = front ++ after ∧ P before front after)
    {fuel : ℕ} (hfuel : text.length ≤ fuel) :
    (front, after) ∈ repeatEnds step fuel before text ↔
      text = front ++ after ∧ Repeats P before front after := by
  induction fuel generalizing before text front after with
  | zero =>
      obtain rfl : text = [] := List.eq_nil_of_length_eq_zero (Nat.le_zero.mp hfuel)
      rw [repeatEnds, List.mem_singleton, Prod.mk.injEq]
      constructor
      · rintro ⟨rfl, rfl⟩
        exact ⟨rfl, .nil⟩
      · rintro ⟨hnil, -⟩
        exact List.append_eq_nil_iff.mp hnil.symm
  | succ fuel ih =>
      rw [repeatEnds, List.mem_cons, List.mem_flatMap]
      constructor
      · rintro (hnil | ⟨⟨first, rest⟩, hfirst, hrest⟩)
        · obtain ⟨rfl, rfl⟩ := Prod.mk.inj hnil
          exact ⟨rfl, .nil⟩
        · obtain ⟨rfl, hmatch⟩ := (hstep _ _ _ _).mp hfirst
          dsimp only at hrest
          split at hrest
          · cases hrest
          · next hne =>
              obtain ⟨⟨back, remains⟩, hback, hpair⟩ := List.mem_map.mp hrest
              cases hpair
              have hshort : rest.length ≤ fuel := by
                have := List.length_pos_of_ne_nil hne
                rw [List.length_append] at hfuel
                omega
              obtain ⟨rfl, hrepeats⟩ := (ih hshort).mp hback
              exact ⟨(List.append_assoc _ _ _).symm, .cons hmatch hrepeats⟩
      · rintro ⟨rfl, hrepeats⟩
        obtain rfl | ⟨first, rest, rfl, hne, hmatch, hrest⟩ := hrepeats.nil_or_cons
        · exact Or.inl rfl
        · right
          have hshort : (rest ++ after).length ≤ fuel := by
            have := List.length_pos_of_ne_nil hne
            simp only [List.length_append] at hfuel ⊢
            omega
          refine ⟨(first, rest ++ after), (hstep _ _ _ _).mpr ⟨by simp, hmatch⟩, ?_⟩
          dsimp only
          rw [if_neg hne]
          exact List.mem_map.mpr ⟨(rest, after), (ih hshort).mpr ⟨rfl, hrest⟩, rfl⟩

/-- What is matched and what remains are parts of the text. -/
theorem mem_ends_iff (r : Regex) (before : Option Char) (text front after : List Char) :
    (front, after) ∈ r.ends before text ↔ text = front ++ after ∧ r.Matches before front after := by
  induction r generalizing before text front after with
  | empty =>
      rw [ends, List.mem_singleton, Prod.mk.injEq]
      constructor
      · rintro ⟨rfl, rfl⟩
        exact ⟨rfl, rfl⟩
      · rintro ⟨rfl, hfront⟩
        obtain rfl : front = [] := hfront
        exact ⟨rfl, rfl⟩
  | char p =>
      cases text with
      | nil =>
          refine iff_of_false nofun ?_
          rintro ⟨htext, c, rfl, -⟩
          cases htext
      | cons c rest =>
          rw [ends]
          constructor
          · intro h
            split at h
            · next hp =>
                cases List.mem_singleton.mp h
                exact ⟨rfl, c, rfl, hp⟩
            · cases h
          · rintro ⟨htext, d, rfl, hp⟩
            cases htext
            rw [if_pos hp]
            exact List.mem_singleton_self _
  | boundary =>
      rw [ends]
      constructor
      · intro h
        split at h
        · cases h
        · next hne =>
            cases List.mem_singleton.mp h
            exact ⟨rfl, rfl, hne⟩
      · rintro ⟨rfl, hfront, hne⟩
        subst hfront
        rw [List.nil_append, if_neg hne]
        exact List.mem_singleton_self _
  | start =>
      rw [ends]
      constructor
      · intro h
        split at h
        · next hnone =>
            cases List.mem_singleton.mp h
            exact ⟨rfl, rfl, hnone⟩
        · cases h
      · rintro ⟨rfl, hfront, hnone⟩
        subst hfront
        rw [if_pos hnone]
        exact List.mem_singleton_self _
  | finish =>
      rw [ends]
      constructor
      · intro h
        split at h
        · next hnil =>
            cases List.mem_singleton.mp h
            exact ⟨rfl, rfl, hnil⟩
        · cases h
      · rintro ⟨rfl, hfront, hnil⟩
        subst hfront
        rw [List.nil_append, if_pos hnil]
        exact List.mem_singleton_self _
  | seq r s ihr ihs =>
      rw [ends, List.mem_flatMap]
      constructor
      · rintro ⟨⟨first, rest⟩, hfirst, hrest⟩
        obtain ⟨⟨second, remains⟩, hsecond, hpair⟩ := List.mem_map.mp hrest
        cases hpair
        obtain ⟨rfl, hmatch⟩ := (ihr _ _ _ _).mp hfirst
        obtain ⟨rfl, hmatch'⟩ := (ihs _ _ _ _).mp hsecond
        exact ⟨(List.append_assoc _ _ _).symm, first, second, rfl, hmatch, hmatch'⟩
      · rintro ⟨rfl, first, second, rfl, hmatch, hmatch'⟩
        refine ⟨(first, second ++ after), (ihr _ _ _ _).mpr ⟨by simp, hmatch⟩, ?_⟩
        exact List.mem_map.mpr ⟨(second, after), (ihs _ _ _ _).mpr ⟨rfl, hmatch'⟩, rfl⟩
  | alt r s ihr ihs =>
      rw [ends, List.mem_append, ihr, ihs, ← and_or_left]
      rfl
  | star r ih => exact mem_repeatEnds_iff ih (Nat.le_refl _)

end Ends

theorem ends_ne_nil_iff (r : Regex) (before : Option Char) (text : List Char) :
    (!(r.ends before text).isEmpty) = true ↔
      ∃ front after, text = front ++ after ∧ r.Matches before front after := by
  rw [Bool.not_eq_true', List.isEmpty_eq_false_iff_exists_mem]
  constructor
  · rintro ⟨⟨front, after⟩, h⟩
    exact ⟨front, after, (r.mem_ends_iff _ _ _ _).mp h⟩
  · rintro ⟨front, after, h⟩
    exact ⟨(front, after), (r.mem_ends_iff _ _ _ _).mpr h⟩

/-- A test succeeds where some part of the text matches. -/
theorem testFrom_iff (r : Regex) (before : Option Char) (text : List Char) :
    r.testFrom before text ↔ ∃ skipped front after, text = skipped ++ (front ++ after) ∧
      r.Matches (lastOf before skipped) front after := by
  induction text generalizing before with
  | nil =>
      rw [testFrom, ends_ne_nil_iff]
      constructor
      · rintro ⟨front, after, htext, hmatch⟩
        exact ⟨[], front, after, htext, hmatch⟩
      · rintro ⟨skipped, front, after, htext, hmatch⟩
        obtain ⟨rfl, hrest⟩ := List.append_eq_nil_iff.mp htext.symm
        exact ⟨front, after, hrest.symm, hmatch⟩
  | cons c rest ih =>
      rw [testFrom, Bool.or_eq_true, ends_ne_nil_iff, ih]
      constructor
      · rintro (⟨front, after, htext, hmatch⟩ | ⟨skipped, front, after, rfl, hmatch⟩)
        · exact ⟨[], front, after, htext, hmatch⟩
        · refine ⟨c :: skipped, front, after, rfl, ?_⟩
          rw [← List.singleton_append, lastOf_append]
          exact hmatch
      · rintro ⟨skipped, front, after, htext, hmatch⟩
        cases skipped with
        | nil => exact Or.inl ⟨front, after, htext, hmatch⟩
        | cons d skipped =>
            obtain ⟨rfl, rfl⟩ := List.cons.inj htext
            refine Or.inr ⟨skipped, front, after, rfl, ?_⟩
            rw [← List.singleton_append, lastOf_append] at hmatch
            exact hmatch

theorem test_iff (r : Regex) (text : List Char) :
    r.test text ↔ ∃ skipped front after, text = skipped ++ (front ++ after) ∧
      r.Matches skipped.getLast? front after := by
  unfold test
  rw [testFrom_iff]
  simp only [lastOf_none]

/-! ## Derived expressions -/

def plus (r : Regex) : Regex := .seq r (.star r)

def optional (r : Regex) : Regex := .alt r .empty

def literal (text : List Char) : Regex :=
  text.foldr (fun c rest => .seq (.char (· = c)) rest) .empty

/-- A literal of ASCII characters under the flag `i`. -/
def caseless (text : List Char) : Regex :=
  text.foldr (fun c rest => .seq (.char fun d => d.toUpper = c.toUpper) rest) .empty

def oneOf (rs : List Regex) : Regex := rs.foldr .alt (.char fun _ => false)

section Derived

variable {before : Option Char} {text after : List Char}

theorem matches_literal_iff (word : List Char) :
    (literal word).Matches before text after ↔ text = word := by
  induction word generalizing before text with
  | nil => rfl
  | cons c word ih =>
      constructor
      · rintro ⟨front, back, rfl, ⟨d, rfl, hd⟩, hback⟩
        rw [ih.mp hback, of_decide_eq_true hd]
        rfl
      · rintro rfl
        exact ⟨[c], word, rfl, ⟨c, rfl, decide_eq_true rfl⟩, ih.mpr rfl⟩

theorem matches_caseless_iff (word : List Char) :
    (caseless word).Matches before text after ↔
      text.map Char.toUpper = word.map Char.toUpper := by
  induction word generalizing before text with
  | nil => exact List.map_eq_nil_iff.symm
  | cons c word ih =>
      constructor
      · rintro ⟨front, back, rfl, ⟨d, rfl, hd⟩, hback⟩
        rw [List.singleton_append, List.map_cons, List.map_cons, ih.mp hback, of_decide_eq_true hd]
      · intro hmap
        obtain ⟨d, rest, rfl, hd, hrest⟩ := List.map_eq_cons_iff.mp hmap
        exact ⟨[d], rest, rfl, ⟨d, rfl, decide_eq_true hd⟩, ih.mpr hrest⟩

theorem matches_oneOf_iff (rs : List Regex) :
    (oneOf rs).Matches before text after ↔ ∃ r ∈ rs, r.Matches before text after := by
  induction rs with
  | nil =>
      refine iff_of_false ?_ nofun
      rintro ⟨c, -, hfalse⟩
      cases hfalse
  | cons r rs ih =>
      simp only [List.mem_cons, exists_eq_or_imp, ← ih]
      rfl

theorem matches_star_char_iff {p : Char → Bool} :
    (star (char p)).Matches before text after ↔ ∀ c ∈ text, p c := by
  constructor
  · intro h
    change Repeats _ _ _ _ at h
    induction h with
    | nil => exact nofun
    | cons hfront hback ih =>
        obtain ⟨c, rfl, hc⟩ := hfront
        intro d hd
        rcases List.mem_cons.mp hd with rfl | hd
        · exact hc
        · exact ih d hd
  · intro h
    change Repeats _ _ _ _
    induction text generalizing before with
    | nil => exact .nil
    | cons c rest ih =>
        have hfront : (char p).Matches before [c] (rest ++ after) :=
          ⟨c, rfl, h c List.mem_cons_self⟩
        exact .cons hfront (ih fun d hd => h d (List.mem_cons_of_mem c hd))

theorem matches_plus_char_iff {p : Char → Bool} :
    (plus (char p)).Matches before text after ↔ text ≠ [] ∧ ∀ c ∈ text, p c := by
  constructor
  · rintro ⟨front, back, rfl, ⟨c, rfl, hc⟩, hback⟩
    refine ⟨by simp, fun d hd => ?_⟩
    rcases List.mem_cons.mp hd with rfl | hd
    · exact hc
    · exact matches_star_char_iff.mp hback d hd
  · rintro ⟨hne, hall⟩
    cases text with
    | nil => exact absurd rfl hne
    | cons c rest =>
        exact ⟨[c], rest, rfl, ⟨c, rfl, hall c List.mem_cons_self⟩,
          matches_star_char_iff.mpr fun d hd => hall d (List.mem_cons_of_mem c hd)⟩

end Derived

end Regex

end Orgistry.Text
