import Orgistry.Text.Cutting

/-!
# Searching in markup

Searches for tags in a text as regular expressions make them, and what they find in a
text that is made of tags and of character data without the opening bracket.
-/

namespace Orgistry.Text

/-- What stands behind the word at the beginning of the text. -/
def after : List Char → List Char → Option (List Char)
  | [], text => some text
  | _ :: _, [] => none
  | c :: word, d :: text => if c = d then after word text else none

/-- The text before and after the first occurrence of a word. -/
def breakAt (word : List Char) : List Char → Option (List Char × List Char)
  | [] => (after word []).map fun rest => ([], rest)
  | c :: text =>
      match after word (c :: text) with
      | some rest => some ([], rest)
      | none => (breakAt word text).map fun (front, rest) => (c :: front, rest)

def openTag (name : List Char) : List Char := '<' :: (name ++ ['>'])

def closeTag (name : List Char) : List Char := openTag ('/' :: name)

/-- The group of the first match of `<name>([^<]*)</name>`. -/
def matchElement (name : List Char) : List Char → Option (List Char)
  | [] => none
  | c :: text =>
      match after (openTag name) (c :: text) with
      | none => matchElement name text
      | some inner =>
          if (after (closeTag name) (inner.dropWhile (· ≠ '<'))).isSome then
            some (inner.takeWhile (· ≠ '<'))
          else matchElement name text

/-- The groups of all matches of `<name>([\s\S]*?)</name>`, a number of them at most. -/
def matchBlocks (name : List Char) : ℕ → List Char → List (List Char)
  | 0, _ => []
  | limit + 1, text =>
      match breakAt (openTag name) text with
      | none => []
      | some (_, inner) =>
          match breakAt (closeTag name) inner with
          | none => []
          | some (block, rest) => block :: matchBlocks name limit rest

/-- All of them: each takes a part of the text. -/
def matchAllBlocks (name text : List Char) : List (List Char) := matchBlocks name text.length text

theorem after_eq_some_iff {word text rest : List Char} :
    after word text = some rest ↔ text = word ++ rest := by
  induction word generalizing text with
  | nil => exact Option.some_inj
  | cons c word ih =>
      cases text with
      | nil => exact iff_of_false nofun nofun
      | cons d text =>
          rw [after, List.cons_append, List.cons.injEq]
          split
          · next h => rw [ih, and_iff_right h.symm]
          · next h => exact iff_of_false nofun fun heq => h heq.1.symm

theorem after_append (word rest : List Char) : after word (word ++ rest) = some rest :=
  after_eq_some_iff.mpr rfl

/-- A tag, by what stands between its brackets, or character data. -/
inductive Piece
  | tag (name : List Char)
  | data (text : List Char)
  deriving DecidableEq

namespace Piece

def render : Piece → List Char
  | tag name => openTag name
  | data text => text

/-- Brackets are brackets of tags. -/
def Plain : Piece → Prop
  | tag name => '<' ∉ name ∧ '>' ∉ name
  | data text => '<' ∉ text

instance : DecidablePred Plain
  | tag name => inferInstanceAs (Decidable ('<' ∉ name ∧ '>' ∉ name))
  | data text => inferInstanceAs (Decidable ('<' ∉ text))

end Piece

def renderAll (pieces : List Piece) : List Char := pieces.flatMap Piece.render

theorem renderAll_append (front back : List Piece) :
    renderAll (front ++ back) = renderAll front ++ renderAll back := List.flatMap_append

theorem renderAll_cons (piece : Piece) (pieces : List Piece) :
    renderAll (piece :: pieces) = piece.render ++ renderAll pieces := rfl

section Searching

variable {name other text rest : List Char}

/-- Only its own tag begins like a tag. -/
theorem after_openTag (hname : '>' ∉ name) (hother : '>' ∉ other) (hne : other ≠ name)
    (rest : List Char) : after (openTag name) (openTag other ++ rest) = none := by
  rw [Option.eq_none_iff_forall_ne_some]
  intro remains hafter
  have heq := (List.cons.inj (after_eq_some_iff.mp hafter)).2
  change (other ++ ['>']) ++ rest = (name ++ ['>']) ++ remains at heq
  rw [List.append_assoc, List.append_assoc] at heq
  have hcut : cut '>' (other ++ '>' :: rest) = some (other, rest) := cut_append hother
  change other ++ '>' :: rest = name ++ '>' :: remains at heq
  rw [heq, cut_append hname, Option.some.injEq, Prod.mk.injEq] at hcut
  exact hne hcut.1.symm

theorem after_of_ne {c : Char} (hc : c ≠ '<') (word : List Char) :
    after ('<' :: word) (c :: text) = none := if_neg (Ne.symm hc)

theorem breakAt_skip {front : List Char} (hfront : '<' ∉ front) (text word : List Char) :
    breakAt ('<' :: word) (front ++ text) =
      (breakAt ('<' :: word) text).map fun (before, rest) => (front ++ before, rest) := by
  induction front with
  | nil => simp
  | cons c front ih =>
      rw [List.mem_cons, not_or] at hfront
      rw [List.cons_append, breakAt, after_of_ne (Ne.symm hfront.1), ih hfront.2, Option.map_map]
      rfl

theorem matchElement_skip {front : List Char} (hfront : '<' ∉ front) :
    matchElement name (front ++ text) = matchElement name text := by
  induction front with
  | nil => rfl
  | cons c front ih =>
      rw [List.mem_cons, not_or] at hfront
      rw [List.cons_append, matchElement, openTag, after_of_ne (Ne.symm hfront.1)]
      exact ih hfront.2

variable {piece : Piece} {pieces front back : List Piece}

theorem after_append_eq_none {word more : List Char} (h : after word text = none) :
    after (word ++ more) text = none := by
  rw [Option.eq_none_iff_forall_ne_some] at h ⊢
  intro rest hafter
  refine h (more ++ rest) (after_eq_some_iff.mpr ?_)
  rw [after_eq_some_iff.mp hafter, List.append_assoc]

/-- A search passes over every piece that is not its tag. -/
theorem breakAt_piece (hname : '>' ∉ name) (hplain : piece.Plain) (hne : piece ≠ .tag name)
    (more text : List Char) : breakAt (openTag name ++ more) (piece.render ++ text) =
      (breakAt (openTag name ++ more) text).map
        fun (before, rest) => (piece.render ++ before, rest) := by
  cases piece with
  | data content => exact breakAt_skip hplain _ _
  | tag other =>
      have hother : other ≠ name := fun h => hne (by rw [h])
      have hnone : after (openTag name ++ more) (openTag other ++ text) = none :=
        after_append_eq_none (after_openTag hname hplain.2 hother text)
      have hinner : '<' ∉ other ++ ['>'] := by simp [hplain.1]
      change breakAt _ ('<' :: ((other ++ ['>']) ++ text)) = _
      rw [breakAt]
      change after _ ('<' :: ((other ++ ['>']) ++ text)) = none at hnone
      rw [hnone]
      dsimp only
      rw [openTag, List.cons_append, breakAt_skip hinner, Option.map_map]
      rfl

theorem matchElement_piece (hname : '>' ∉ name) (hplain : piece.Plain) (hne : piece ≠ .tag name)
    (text : List Char) : matchElement name (piece.render ++ text) = matchElement name text := by
  cases piece with
  | data content => exact matchElement_skip hplain
  | tag other =>
      have hother : other ≠ name := fun h => hne (by rw [h])
      have hnone := after_openTag hname hplain.2 hother text
      have hinner : '<' ∉ other ++ ['>'] := by simp [hplain.1]
      change matchElement _ ('<' :: ((other ++ ['>']) ++ text)) = _
      change after _ ('<' :: ((other ++ ['>']) ++ text)) = none at hnone
      rw [matchElement, hnone]
      exact matchElement_skip hinner

theorem breakAt_word (name more rest : List Char) :
    breakAt (openTag name ++ more) (openTag name ++ (more ++ rest)) = some ([], rest) := by
  have hafter := after_append (openTag name ++ more) rest
  unfold openTag at hafter ⊢
  simp only [List.cons_append, List.append_assoc] at hafter ⊢
  rw [breakAt, hafter]

/-- Plain text and other tags are skipped. -/
theorem breakAt_skipAll (hname : '>' ∉ name)
    (hskipped : ∀ piece ∈ pieces, piece.Plain ∧ piece ≠ .tag name) (more text : List Char) :
    breakAt (openTag name ++ more) (renderAll pieces ++ text) =
      (breakAt (openTag name ++ more) text).map
        fun (before, rest) => (renderAll pieces ++ before, rest) := by
  induction pieces with
  | nil =>
      change breakAt _ text = _
      cases breakAt (openTag name ++ more) text with
      | none => rfl
      | some parts => rfl
  | cons piece pieces ih =>
      obtain ⟨hplain, hne⟩ := hskipped piece List.mem_cons_self
      rw [renderAll_cons, List.append_assoc, breakAt_piece hname hplain hne,
        ih fun other hother => hskipped other (List.mem_cons_of_mem _ hother), Option.map_map]
      congr 1
      funext parts
      simp only [Function.comp_apply, List.append_assoc]

/-- The first tag of the name is found. -/
theorem breakAt_renderAll (hname : '>' ∉ name)
    (hfront : ∀ piece ∈ front, piece.Plain ∧ piece ≠ .tag name) (back : List Piece) :
    breakAt (openTag name) (renderAll (front ++ .tag name :: back)) =
      some (renderAll front, renderAll back) := by
  have hskip := breakAt_skipAll hname hfront [] (openTag name ++ renderAll back)
  have hfound := breakAt_word name [] (renderAll back)
  rw [List.append_nil] at hskip hfound
  rw [renderAll_append, renderAll_cons]
  change breakAt _ (renderAll front ++ (openTag name ++ renderAll back)) = _
  rw [hskip]
  change breakAt _ (openTag name ++ renderAll back) = _ at hfound
  rw [hfound, Option.map_some]
  dsimp only
  rw [List.append_nil]

theorem breakAt_renderAll_none (hname : '>' ∉ name)
    (hpieces : ∀ piece ∈ pieces, piece.Plain ∧ piece ≠ .tag name) (more : List Char) :
    breakAt (openTag name ++ more) (renderAll pieces) = none := by
  have hskip := breakAt_skipAll hname hpieces more []
  rw [List.append_nil] at hskip
  rw [hskip]
  rfl

/-- A search for an element with its text finds the element exactly when it has the
text. -/
theorem breakAt_element (hname : '<' ∉ name ∧ '>' ∉ name)
    (hfront : ∀ piece ∈ front, piece.Plain ∧ piece ≠ .tag name)
    (hback : ∀ piece ∈ back, piece.Plain ∧ piece ≠ .tag name)
    {value : List Char} (htext : '<' ∉ text) (hvalue : '<' ∉ value) :
    (breakAt (openTag name ++ (value ++ closeTag name))
      (renderAll (front ++ .tag name :: .data text :: .tag ('/' :: name) :: back))).isSome ↔
        text = value := by
  have hrender : renderAll (front ++ .tag name :: .data text :: .tag ('/' :: name) :: back) =
      renderAll front ++ (openTag name ++ (text ++ (closeTag name ++ renderAll back))) := by
    rw [renderAll_append]
    rfl
  rw [hrender, breakAt_skipAll hname.2 hfront, Option.isSome_map]
  by_cases hsame : text = value
  · subst hsame
    have hfound := breakAt_word name (text ++ closeTag name) (renderAll back)
    rw [List.append_assoc text] at hfound
    rw [hfound]
    exact iff_of_true rfl rfl
  · refine iff_of_false ?_ hsame
    -- neither here nor behind, where only other tags begin
    have hnone : after (openTag name ++ (value ++ closeTag name))
        (openTag name ++ (text ++ (closeTag name ++ renderAll back))) = none := by
      rw [Option.eq_none_iff_forall_ne_some]
      intro rest hafter
      have heq := after_eq_some_iff.mp hafter
      rw [List.append_assoc, List.append_assoc, List.append_cancel_left_eq] at heq
      have hcut : cut '<' (text ++ '<' :: ('/' :: name ++ ['>'] ++ renderAll back)) =
          some (text, '/' :: name ++ ['>'] ++ renderAll back) := cut_append htext
      change text ++ '<' :: ('/' :: name ++ ['>'] ++ renderAll back) =
        value ++ '<' :: ('/' :: name ++ ['>'] ++ rest) at heq
      rw [heq, cut_append hvalue, Option.some.injEq, Prod.mk.injEq] at hcut
      exact hsame hcut.1.symm
    have hpieces : ∀ piece ∈ Piece.tag ('/' :: name) :: back,
        piece.Plain ∧ piece ≠ .tag name := by
      intro piece hpiece
      rcases List.mem_cons.mp hpiece with rfl | hpiece
      · exact ⟨⟨by simp [hname.1], by simp [hname.2]⟩, by simp⟩
      · exact hback piece hpiece
    have hskipped : '<' ∉ name ++ '>' :: text := by simp [hname.1, htext]
    have hbehind := breakAt_skip hskipped (renderAll (.tag ('/' :: name) :: back))
      (name ++ ['>'] ++ (value ++ closeTag name))
    have hempty := breakAt_renderAll_none hname.2 hpieces (value ++ closeTag name)
    rw [openTag, List.cons_append] at hempty
    rw [hempty, Option.map_none] at hbehind
    have hparts : openTag name ++ (text ++ (closeTag name ++ renderAll back)) =
        '<' :: ((name ++ '>' :: text) ++ renderAll (.tag ('/' :: name) :: back)) := by
      rw [renderAll_cons]
      simp only [openTag, closeTag, Piece.render, List.cons_append, List.append_assoc,
        List.nil_append]
    rw [hparts] at hnone ⊢
    rw [breakAt, hnone]
    dsimp only
    rw [openTag, List.cons_append, hbehind]
    simp

theorem span_data (htext : '<' ∉ text) (rest : List Char) :
    (text ++ '<' :: rest).takeWhile (· ≠ '<') = text ∧
      (text ++ '<' :: rest).dropWhile (· ≠ '<') = '<' :: rest := by
  induction text with
  | nil => simp
  | cons c text ih =>
      rw [List.mem_cons, not_or] at htext
      have hc : decide (c ≠ '<') = true := decide_eq_true (Ne.symm htext.1)
      obtain ⟨htake, hdrop⟩ := ih htext.2
      rw [List.cons_append, List.takeWhile_cons_of_pos (p := fun c => decide (c ≠ '<')) hc,
        List.dropWhile_cons_of_pos (p := fun c => decide (c ≠ '<')) hc, htake, hdrop]
      exact ⟨rfl, rfl⟩

/-- The first element of the name is found. -/
theorem matchElement_renderAll (hname : '>' ∉ name)
    (hfront : ∀ piece ∈ front, piece.Plain ∧ piece ≠ .tag name) (htext : '<' ∉ text)
    (back : List Piece) :
    matchElement name
        (renderAll (front ++ .tag name :: .data text :: .tag ('/' :: name) :: back)) =
      some text := by
  induction front with
  | nil =>
      have hafter := after_append (openTag name) (text ++ (closeTag name ++ renderAll back))
      obtain ⟨htake, hdrop⟩ := span_data htext ('/' :: name ++ ['>'] ++ renderAll back)
      change matchElement name (openTag name ++ (text ++ (closeTag name ++ renderAll back))) = _
      unfold openTag at hafter ⊢
      rw [List.cons_append] at hafter ⊢
      rw [matchElement, openTag, hafter]
      change (if (after (closeTag name) (List.dropWhile (· ≠ '<')
        (text ++ '<' :: ('/' :: name ++ ['>'] ++ renderAll back)))).isSome then
          some (List.takeWhile (· ≠ '<') (text ++ '<' :: ('/' :: name ++ ['>'] ++ renderAll back)))
        else _) = _
      rw [htake, hdrop, if_pos]
      exact Option.isSome_iff_exists.mpr ⟨renderAll back, after_append (closeTag name) _⟩
  | cons piece front ih =>
      obtain ⟨hplain, hne⟩ := hfront piece List.mem_cons_self
      rw [List.cons_append, renderAll_cons, matchElement_piece hname hplain hne,
        ih fun other hother => hfront other (List.mem_cons_of_mem _ hother)]

/-- Blocks between other pieces are found one by one. -/
theorem matchBlocks_renderAll (hname : '<' ∉ name ∧ '>' ∉ name)
    {groups : List (List Piece × List Piece)} {last : List Piece}
    (hskipped : ∀ group ∈ groups, ∀ piece ∈ group.1, piece.Plain ∧ piece ≠ .tag name)
    (hblocks : ∀ group ∈ groups, ∀ piece ∈ group.2, piece.Plain ∧ piece ≠ .tag ('/' :: name))
    (hlast : ∀ piece ∈ last, piece.Plain ∧ piece ≠ .tag name) {limit : ℕ}
    (hlimit : groups.length ≤ limit) :
    matchBlocks name limit (renderAll ((groups.flatMap fun (skipped, block) =>
        skipped ++ .tag name :: (block ++ [.tag ('/' :: name)])) ++ last)) =
      groups.map fun (_, block) => renderAll block := by
  induction groups generalizing limit with
  | nil =>
      cases limit with
      | zero => rfl
      | succ limit =>
          have hnone := breakAt_renderAll_none hname.2 hlast []
          rw [List.append_nil] at hnone
          change matchBlocks name (limit + 1) (renderAll last) = []
          rw [matchBlocks, hnone]
  | cons group groups ih =>
      obtain ⟨skipped, block⟩ := group
      obtain ⟨limit, rfl⟩ : ∃ rest, limit = rest + 1 :=
        ⟨limit - 1, by rw [List.length_cons] at hlimit; omega⟩
      have hskip := hskipped _ List.mem_cons_self
      have hblock := hblocks _ List.mem_cons_self
      have hclose : '>' ∉ '/' :: name := by simp [hname.2]
      have hpieces : ((skipped, block) :: groups).flatMap (fun (skipped, block) =>
            skipped ++ .tag name :: (block ++ [.tag ('/' :: name)])) ++ last =
          skipped ++ .tag name :: (block ++ .tag ('/' :: name) ::
            (groups.flatMap (fun (skipped, block) =>
              skipped ++ .tag name :: (block ++ [.tag ('/' :: name)])) ++ last)) := by
        simp only [List.flatMap_cons, List.append_assoc, List.cons_append, List.nil_append]
      rw [hpieces, matchBlocks, breakAt_renderAll hname.2 hskip]
      dsimp only
      rw [closeTag, breakAt_renderAll hclose hblock]
      dsimp only
      rw [ih (fun group h => hskipped group (List.mem_cons_of_mem _ h))
        (fun group h => hblocks group (List.mem_cons_of_mem _ h))
        (by rw [List.length_cons] at hlimit; omega), List.map_cons]

end Searching

end Orgistry.Text
