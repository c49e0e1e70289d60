import Orgistry.Text.Cutting
import Orgistry.Text.Utf8

/-!
# ASCII in a decoded text

An ASCII byte stands for itself wherever it occurs and ends whatever was begun before
it, and no other byte decodes to an ASCII character.  Cutting bytes at ASCII characters
and decoding the pieces is therefore the same as decoding first.
-/

namespace Orgistry.Text

open Utf8State

/-- A character beyond ASCII. -/
def IsLong (c : Char) : Prop := 0x80 ≤ c.toNat

/-- An ASCII byte as a character. -/
def asciiChar (b : Byte) : Char := Char.ofNat b.val

theorem toNat_ofNat {n : ℕ} (h : n.isValidChar) : (Char.ofNat n).toNat = n := by
  unfold Char.ofNat
  rw [dif_pos h]
  rfl

theorem toNat_asciiChar {b : Byte} (h : b.val < 0x80) : (asciiChar b).toNat = b.val :=
  toNat_ofNat (Or.inl (by omega))

theorem asciiChar_injective {a b : Byte} (ha : a.val < 0x80) (hb : b.val < 0x80)
    (h : asciiChar a = asciiChar b) : a = b := by
  apply Fin.ext
  rw [← toNat_asciiChar ha, ← toNat_asciiChar hb, h]

theorem ne_asciiChar {b : Byte} {c : Char} (hb : b.val < 0x80) (hc : IsLong c) :
    c ≠ asciiChar b := by
  rintro rfl
  unfold IsLong at hc
  rw [toNat_asciiChar hb] at hc
  omega

theorem isLong_replacement : IsLong replacement := by
  unfold IsLong replacement
  decide

theorem isLong_ofNat {n : ℕ} (hlong : 0x80 ≤ n) (hvalid : n < 0xD800 ∨ 0xE000 ≤ n)
    (hlast : n < 0x110000) : IsLong (Char.ofNat n) := by
  unfold IsLong
  rw [toNat_ofNat (hvalid.imp id fun h => ⟨by omega, hlast⟩)]
  exact hlong

/-- Every byte within the bounds leads to a character beyond ASCII. -/
def Leads : ℕ → ℕ → ℕ → ℕ → Prop
  | 0, _, _, _ => False
  | 1, codePoint, lower, upper => 0x80 ≤ lower ∧ upper ≤ 0xBF ∧
      ∀ b, lower ≤ b → b ≤ upper → IsLong (Char.ofNat (codePoint * 64 + (b - 0x80)))
  | needed + 2, codePoint, lower, upper => 0x80 ≤ lower ∧ upper ≤ 0xBF ∧
      ∀ b, lower ≤ b → b ≤ upper →
        Leads (needed + 1) (codePoint * 64 + (b - 0x80)) 0x80 0xBF

/-- The states the decoder can be in. -/
def Sane (state : Utf8State) : Prop :=
  state = initial ∨ Leads state.needed state.codePoint state.lower state.upper

theorem sane_initial : Sane initial := Or.inl rfl

theorem leads_bounds {needed codePoint lower upper : ℕ} (h : Leads needed codePoint lower upper) :
    needed ≠ 0 ∧ 0x80 ≤ lower ∧ upper ≤ 0xBF := by
  match needed, h with
  | 1, h => exact ⟨by decide, h.1, h.2.1⟩
  | n + 2, h => exact ⟨by omega, h.1, h.2.1⟩

theorem leads_one {k : ℕ} (hlow : 2 ≤ k) (hhigh : k ≤ 31) : Leads 1 k 0x80 0xBF :=
  ⟨Nat.le_refl _, Nat.le_refl _, fun _ _ _ => isLong_ofNat (by omega) (by omega) (by omega)⟩

theorem leads_two {k : ℕ} (h : k ≤ 15) :
    Leads 2 k (if k = 0 then 0xA0 else 0x80) (if k = 13 then 0x9F else 0xBF) := by
  refine ⟨by split <;> omega, by split <;> omega, fun a hlow hhigh => ?_⟩
  refine ⟨Nat.le_refl _, Nat.le_refl _, fun b _ _ => ?_⟩
  split at hlow <;> split at hhigh <;> exact isLong_ofNat (by omega) (by omega) (by omega)

theorem leads_three {k : ℕ} (h : k ≤ 4) :
    Leads 3 k (if k = 0 then 0x90 else 0x80) (if k = 4 then 0x8F else 0xBF) := by
  refine ⟨by split <;> omega, by split <;> omega, fun a hlow hhigh => ?_⟩
  refine ⟨Nat.le_refl _, Nat.le_refl _, fun b _ _ => ?_⟩
  refine ⟨Nat.le_refl _, Nat.le_refl _, fun c _ _ => ?_⟩
  split at hlow <;> split at hhigh <;> exact isLong_ofNat (by omega) (by omega) (by omega)

/-- What the first byte of a character beyond ASCII leads to. -/
theorem sane_lead {b : ℕ} (h : 0x80 ≤ b) :
    (∀ c ∈ (lead b).1, IsLong c) ∧ Sane (lead b).2 ∧
      ((lead b).1 = [] → (lead b).2.needed ≠ 0) := by
  by_cases htwo : 0xC2 ≤ b ∧ b ≤ 0xDF
  · obtain ⟨k, rfl⟩ : ∃ k, b = 0xC0 + k := ⟨b - 0xC0, by omega⟩
    rw [← step_initial, lead_two (by omega) (by omega)]
    exact ⟨List.forall_mem_nil _, Or.inr (leads_one (k := k) (by omega) (by omega)),
      fun _ => Nat.succ_ne_zero _⟩
  by_cases hthree : 0xE0 ≤ b ∧ b ≤ 0xEF
  · obtain ⟨k, rfl⟩ : ∃ k, b = 0xE0 + k := ⟨b - 0xE0, by omega⟩
    rw [← step_initial, lead_three (by omega)]
    exact ⟨List.forall_mem_nil _, Or.inr (leads_two (k := k) (by omega)),
      fun _ => Nat.succ_ne_zero _⟩
  by_cases hfour : 0xF0 ≤ b ∧ b ≤ 0xF4
  · obtain ⟨k, rfl⟩ : ∃ k, b = 0xF0 + k := ⟨b - 0xF0, by omega⟩
    rw [← step_initial, lead_four (by omega)]
    exact ⟨List.forall_mem_nil _, Or.inr (leads_three (k := k) (by omega)),
      fun _ => Nat.succ_ne_zero _⟩
  · rw [lead, if_neg (by omega), if_neg htwo, if_neg hthree, if_neg hfour]
    refine ⟨fun c hc => ?_, sane_initial, fun h => absurd h (List.cons_ne_nil _ _)⟩
    rw [List.mem_singleton.mp hc]
    exact isLong_replacement

/-- A byte beyond ASCII yields characters beyond ASCII, or one is still to come. -/
theorem sane_step {state : Utf8State} (hstate : Sane state) {b : ℕ} (h : 0x80 ≤ b) :
    (∀ c ∈ (state.step b).1, IsLong c) ∧ Sane (state.step b).2 ∧
      ((state.step b).1 = [] → (state.step b).2.needed ≠ 0) := by
  rcases hstate with rfl | hleads
  · exact sane_lead h
  · obtain ⟨hneeded, hlower, hupper⟩ := leads_bounds hleads
    unfold step
    rw [if_neg hneeded]
    split
    · next hwithin =>
        obtain ⟨needed, codePoint, lower, upper⟩ := state
        match needed, hleads with
        | 1, hleads =>
            refine ⟨fun c hc => ?_, sane_initial, nofun⟩
            rw [List.mem_singleton.mp hc]
            exact hleads.2.2 b hwithin.1 hwithin.2
        | n + 2, hleads =>
            exact ⟨nofun, Or.inr (hleads.2.2 b hwithin.1 hwithin.2), fun _ => by simp⟩
    · obtain ⟨hlong, hsane, -⟩ := sane_lead h
      refine ⟨fun c hc => ?_, hsane, nofun⟩
      rcases List.mem_cons.mp hc with rfl | hc
      · exact isLong_replacement
      · exact hlong c hc

/-- An ASCII byte ends what was begun and stands for itself. -/
theorem run_ascii {state : Utf8State} (hstate : Sane state) {b : Byte} (hb : b.val < 0x80)
    (rest : List Byte) :
    state.run (b :: rest) = state.run [] ++ asciiChar b :: decodeUtf8 rest := by
  rcases hstate with rfl | hleads
  · rw [run_cons, lead_one hb]
    rfl
  · obtain ⟨hneeded, hlower, hupper⟩ := leads_bounds hleads
    have hstep : state.step b = ([replacement, asciiChar b], initial) := by
      unfold step lead
      rw [if_neg hneeded, if_neg (by omega), if_pos hb]
      rfl
    rw [run_cons, hstep, run, if_neg hneeded]
    rfl

theorem sane_next {state : Utf8State} (hstate : Sane state) (b : Byte) :
    Sane (state.step b).2 := by
  by_cases hb : b.val < 0x80
  · rcases hstate with rfl | hleads
    · rw [lead_one hb]
      exact sane_initial
    · obtain ⟨hneeded, hlower, -⟩ := leads_bounds hleads
      unfold step lead
      rw [if_neg hneeded, if_neg (by omega), if_pos hb]
      exact sane_initial
  · exact (sane_step hstate (by omega)).2.1

theorem run_append_ascii {state : Utf8State} (hstate : Sane state) (front : List Byte) {b : Byte}
    (hb : b.val < 0x80) (back : List Byte) :
    state.run (front ++ b :: back) = state.run front ++ asciiChar b :: decodeUtf8 back := by
  induction front generalizing state with
  | nil => exact run_ascii hstate hb back
  | cons a front ih =>
      rw [List.cons_append, run_cons, run_cons, List.append_assoc, ih (sane_next hstate a)]

theorem decode_append_ascii (front : List Byte) {b : Byte} (hb : b.val < 0x80)
    (back : List Byte) :
    decodeUtf8 (front ++ b :: back) = decodeUtf8 front ++ asciiChar b :: decodeUtf8 back :=
  run_append_ascii sane_initial front hb back

theorem decode_cons_ascii {b : Byte} (hb : b.val < 0x80) (back : List Byte) :
    decodeUtf8 (b :: back) = asciiChar b :: decodeUtf8 back :=
  decode_append_ascii [] hb back

/-- What was begun and not ended is replaced. -/
theorem run_nil_long {state : Utf8State} : ∀ c ∈ state.run [], IsLong c := by
  intro c hc
  unfold run at hc
  split at hc
  · cases hc
  · rw [List.mem_singleton.mp hc]
    exact isLong_replacement

/-- Only its byte decodes to an ASCII character. -/
theorem mem_of_mem_run {state : Utf8State} (hstate : Sane state) {b : Byte} (hb : b.val < 0x80)
    {bytes : List Byte} (h : asciiChar b ∈ state.run bytes) : b ∈ bytes := by
  induction bytes generalizing state with
  | nil => exact absurd rfl (ne_asciiChar hb (run_nil_long _ h))
  | cons a rest ih =>
      by_cases ha : a.val < 0x80
      · rw [run_ascii hstate ha] at h
        rcases List.mem_append.mp h with h | h
        · exact absurd rfl (ne_asciiChar hb (run_nil_long _ h))
        · rcases List.mem_cons.mp h with h | h
          · rw [asciiChar_injective hb ha h]
            exact List.mem_cons_self
          · exact List.mem_cons_of_mem a (ih sane_initial h)
      · obtain ⟨hlong, hsane, -⟩ := sane_step hstate (by omega : 0x80 ≤ a.val)
        rcases List.mem_append.mp h with h | h
        · exact absurd rfl (ne_asciiChar hb (hlong _ h))
        · exact List.mem_cons_of_mem a (ih hsane h)

/-- What was begun yields a character beyond ASCII before anything else. -/
theorem run_begun {state : Utf8State} (hstate : Sane state) (hneeded : state.needed ≠ 0)
    (bytes : List Byte) : ∃ c rest, state.run bytes = c :: rest ∧ IsLong c := by
  induction bytes generalizing state with
  | nil =>
      unfold run
      rw [if_neg hneeded]
      exact ⟨_, _, rfl, isLong_replacement⟩
  | cons b bytes ih =>
      by_cases hb : b.val < 0x80
      · rw [run_ascii hstate hb, run, if_neg hneeded]
        exact ⟨_, _, rfl, isLong_replacement⟩
      · obtain ⟨hlong, hsane, hmore⟩ := sane_step hstate (by omega : 0x80 ≤ b.val)
        rw [run_cons]
        cases hout : (state.step b).1 with
        | nil => exact ih hsane (hmore hout)
        | cons c rest => exact ⟨c, _, rfl, hlong c (by rw [hout]; exact List.mem_cons_self)⟩

theorem decode_cons_long {b : Byte} (hb : 0x80 ≤ b.val) (bytes : List Byte) :
    ∃ c rest, decodeUtf8 (b :: bytes) = c :: rest ∧ IsLong c := by
  obtain ⟨hlong, hsane, hmore⟩ := sane_lead hb
  unfold decodeUtf8
  rw [run_cons, step_initial]
  cases hout : (lead b).1 with
  | nil => exact run_begun hsane (hmore hout) bytes
  | cons c rest => exact ⟨c, _, rfl, hlong c (by rw [hout]; exact List.mem_cons_self)⟩

/-- A text of ASCII characters is one of ASCII bytes. -/
theorem ascii_of_decode {bytes : List Byte} (h : ∀ c ∈ decodeUtf8 bytes, ¬ IsLong c) :
    ∀ b ∈ bytes, b.val < 0x80 := by
  induction bytes with
  | nil => exact nofun
  | cons b rest ih =>
      have hb : b.val < 0x80 := by
        by_contra hb
        obtain ⟨c, chars, hdecode, hlong⟩ := decode_cons_long (by omega : 0x80 ≤ b.val) rest
        exact h c (by rw [hdecode]; exact List.mem_cons_self) hlong
      rw [decode_cons_ascii hb] at h
      intro a ha
      rcases List.mem_cons.mp ha with rfl | ha
      · exact hb
      · exact ih (fun c hc => h c (List.mem_cons_of_mem _ hc)) a ha

theorem decode_of_ascii {bytes : List Byte} (h : ∀ b ∈ bytes, b.val < 0x80) :
    decodeUtf8 bytes = bytes.map asciiChar := by
  induction bytes with
  | nil => rfl
  | cons b rest ih =>
      rw [decode_cons_ascii (h b List.mem_cons_self),
        ih fun a ha => h a (List.mem_cons_of_mem b ha)]
      rfl

theorem encodeChar_asciiChar {b : Byte} (h : b.val < 0x80) : encodeChar (asciiChar b) = [b] := by
  unfold encodeChar
  rw [toNat_asciiChar h]
  simp only [h, if_true]
  exact congrArg (fun a => [a]) (Fin.ext (val_byte b.isLt))

theorem encode_decode_of_ascii {bytes : List Byte} (h : ∀ b ∈ bytes, b.val < 0x80) :
    encodeUtf8 (decodeUtf8 bytes) = bytes := by
  rw [decode_of_ascii h]
  unfold encodeUtf8
  induction bytes with
  | nil => rfl
  | cons b rest ih =>
      rw [List.map_cons, List.flatMap_cons, encodeChar_asciiChar (h b List.mem_cons_self),
        ih fun a ha => h a (List.mem_cons_of_mem b ha)]
      rfl

theorem run_concat_long {state : Utf8State} (hstate : Sane state) (bytes : List Byte) {b : Byte}
    (hb : 0x80 ≤ b.val) :
    ∃ before c, state.run (bytes ++ [b]) = before ++ [c] ∧ IsLong c := by
  induction bytes generalizing state with
  | nil =>
      obtain ⟨hlong, hsane, hmore⟩ := sane_step hstate hb
      rw [List.nil_append, run_cons, run]
      split
      · next hdone =>
          obtain ⟨before, c, hout⟩ := (List.eq_nil_or_concat' _).resolve_left
            (mt hmore (not_not_intro hdone))
          rw [List.append_nil, hout]
          exact ⟨before, c, rfl, hlong c (by rw [hout]; simp)⟩
      · exact ⟨_, _, rfl, isLong_replacement⟩
  | cons a bytes ih =>
      obtain ⟨before, c, hrun, hlong⟩ := ih (sane_next hstate a)
      rw [List.cons_append, run_cons, hrun, ← List.append_assoc]
      exact ⟨_, c, rfl, hlong⟩

/-! ## Cutting before decoding -/

section Transfer

variable {b : Byte} (hb : b.val < 0x80) (bytes : List Byte)

include hb

theorem mem_decode_iff : asciiChar b ∈ decodeUtf8 bytes ↔ b ∈ bytes := by
  constructor
  · exact mem_of_mem_run sane_initial hb
  · intro h
    obtain ⟨front, back, rfl⟩ := List.append_of_mem h
    rw [decode_append_ascii front hb back]
    simp

theorem head?_decode_iff :
    (decodeUtf8 bytes).head? = some (asciiChar b) ↔ bytes.head? = some b := by
  cases bytes with
  | nil => exact iff_of_false nofun nofun
  | cons a rest =>
      rw [List.head?_cons, Option.some.injEq]
      by_cases ha : a.val < 0x80
      · rw [decode_cons_ascii ha, List.head?_cons, Option.some.injEq]
        exact ⟨asciiChar_injective ha hb, congrArg asciiChar⟩
      · obtain ⟨c, chars, hdecode, hlong⟩ := decode_cons_long (by omega : 0x80 ≤ a.val) rest
        rw [hdecode, List.head?_cons, Option.some.injEq]
        refine iff_of_false (ne_asciiChar hb hlong) ?_
        rintro rfl
        exact ha hb

/-- An ASCII byte is the last one exactly when its character is. -/
theorem getLast?_decode_iff :
    (decodeUtf8 bytes).getLast? = some (asciiChar b) ↔ bytes.getLast? = some b := by
  rcases List.eq_nil_or_concat' bytes with rfl | ⟨front, a, rfl⟩
  · exact iff_of_false nofun nofun
  · rw [List.getLast?_concat, Option.some.injEq]
    by_cases ha : a.val < 0x80
    · rw [decode_append_ascii front ha, show decodeUtf8 [] = [] from rfl, List.getLast?_concat,
        Option.some.injEq]
      exact ⟨asciiChar_injective ha hb, congrArg asciiChar⟩
    · obtain ⟨before, c, hrun, hlong⟩ :=
        run_concat_long sane_initial front (by omega : 0x80 ≤ a.val)
      unfold decodeUtf8
      rw [hrun, List.getLast?_concat, Option.some.injEq]
      refine iff_of_false (ne_asciiChar hb hlong) ?_
      rintro rfl
      exact ha hb

theorem chomp_decode : chomp (asciiChar b) (decodeUtf8 bytes) = decodeUtf8 (chomp b bytes) := by
  by_cases h : bytes.getLast? = some b
  · obtain ⟨front, rfl⟩ := List.getLast?_eq_some_iff.mp h
    rw [chomp_append, decode_append_ascii front hb, show decodeUtf8 [] = [] from rfl,
      chomp_append]
  · rw [chomp_of_ne h, chomp_of_ne (mt (getLast?_decode_iff hb bytes).mp h)]

theorem cut_decode : cut (asciiChar b) (decodeUtf8 bytes) =
    (cut b bytes).map (Prod.map decodeUtf8 decodeUtf8) := by
  by_cases h : b ∈ bytes
  · obtain ⟨front, back, rfl, hfront⟩ := exists_first h
    rw [decode_append_ascii front hb back, cut_append hfront,
      cut_append (mt (mem_decode_iff hb front).mp hfront)]
    rfl
  · rw [cut_of_notMem h, cut_of_notMem (mt (mem_decode_iff hb bytes).mp h)]
    rfl

theorem splitOn_decode :
    splitOn (asciiChar b) (decodeUtf8 bytes) = (splitOn b bytes).map decodeUtf8 := by
  induction hlength : bytes.length using Nat.strongRecOn generalizing bytes with
  | _ n ih =>
      by_cases h : b ∈ bytes
      · obtain ⟨front, back, rfl, hfront⟩ := exists_first h
        have hshort : back.length < n := by
          rw [← hlength, List.length_append, List.length_cons]
          omega
        rw [decode_append_ascii front hb back, splitOn_append hfront,
          splitOn_append (mt (mem_decode_iff hb front).mp hfront), ih _ hshort back rfl]
        rfl
      · rw [splitOn_of_notMem h, splitOn_of_notMem (mt (mem_decode_iff hb bytes).mp h)]
        rfl

/-- Quotes can be taken off before or after decoding. -/
theorem unquote_decode :
    unquote (asciiChar b) (decodeUtf8 bytes) = (unquote b bytes).map decodeUtf8 := by
  cases hquoted : unquote b bytes with
  | some inner =>
      rw [unquote_eq_some_iff.mp hquoted, decode_cons_ascii hb, decode_append_ascii inner hb]
      exact unquote_eq_some_iff.mpr rfl
  | none =>
      -- the quotes of a quoted text are bytes of their own
      rw [Option.map_none, Option.eq_none_iff_forall_ne_some]
      intro inner hinner
      have htext := unquote_eq_some_iff.mp hinner
      have hhead := (head?_decode_iff hb bytes).mp (by rw [htext]; rfl)
      obtain ⟨rest, rfl⟩ := List.head?_eq_some_iff.mp hhead
      rw [decode_cons_ascii hb, List.cons.injEq] at htext
      have hlast := (getLast?_decode_iff hb rest).mp (by rw [htext.2, List.getLast?_concat])
      obtain ⟨front, rfl⟩ := List.getLast?_eq_some_iff.mp hlast
      rw [unquote_eq_some_iff.mpr rfl] at hquoted
      cases hquoted

end Transfer

end Orgistry.Text
