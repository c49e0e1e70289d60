import Orgistry.Model.BackupCatalog

/-!
# The recovery window

The window that the catalog shows goes from the first to the last name of the
WAL listing.  This file compares the names of the four kinds of files and says
for which listings the window is one that a recovery can go through.
-/

namespace Orgistry.Model

open Sorting

variable {layout : WalLayout}

/-- The next segment of the WAL, on the same timeline or on a later one. -/
def WalSegment.Follows (next segment : WalSegment layout) : Prop :=
  next.number = segment.number + 1 ∧ segment.timeline ≤ next.timeline

/-- Every segment from the first one to the last one is there. -/
def Unbroken (files : List (WalFile layout)) (first last : WalSegment layout) : Prop :=
  Relation.ReflTransGen (fun segment next => .segment next ∈ files ∧ next.Follows segment)
    first last

/-- The ends of the window are the first and the last segment, with every
segment between them. -/
def WindowIsReal (files : List (WalFile layout)) (window : WalWindow) : Prop :=
  files = [] ∨ ∃ first last, .segment first ∈ files ∧ .segment last ∈ files ∧
    window.earliestSegment = first.name ∧ window.latestSegment = last.name ∧
      (∀ segment, .segment segment ∈ files →
        (first.order segment).isLE ∧ (last.order segment).isGE) ∧
        Unbroken files first last

/-- Where the name of a segment stands: after the history of its timeline,
after a backup file of its own (unless the offset begins with `F`) and before
its partial copy. -/
def WalSegment.compareFile (segment : WalSegment layout) : WalFile layout → Ordering
  | .segment other => segment.order other
  | .history timeline => (compare segment.timeline.val timeline.val).then .gt
  | .backup other offset =>
      (segment.order other).then (if offset.val < 15 * 16 ^ 7 then .gt else .lt)
  | .partialCopy other => (segment.order other).then .lt

@[simp]
theorem primaryWeights_append (left right : String) :
    primaryWeights (left ++ right) = primaryWeights left ++ primaryWeights right := by
  simp [primaryWeights]

theorem compare_hex8 {m n : ℕ} (hm : m < 16 ^ 8) (hn : n < 16 ^ 8) (back back' : String) :
    compare (primaryWeights (hex8 m ++ back)) (primaryWeights (hex8 n ++ back')) =
      (compare m n).then (compare (primaryWeights back) (primaryWeights back')) := by
  have hdigits : compare (primaryWeights (hex8 m)) (primaryWeights (hex8 n)) = compare m n := by
    simpa [primaryWeights, hex8] using compare_hexDigits hm hn
  rw [primaryWeights_append, primaryWeights_append,
    compare_append (by simp [primaryWeights, hex8]), hdigits]

namespace WalSegment

variable {segment other : WalSegment layout}

theorem remainder_lt (segment : WalSegment layout) :
    segment.number % layout.segmentsPerLog < 16 ^ 8 :=
  (Nat.mod_lt _ layout.pos).trans_le layout.le

theorem order_eq_eq : segment.order other = .eq ↔ segment = other := by
  cases segment
  cases other
  simp [order, Ordering.then_eq_eq, Fin.val_inj]

/-- The names compare as the segments do, and then what follows decides. -/
theorem compare_name (segment other : WalSegment layout) (back back' : String) :
    compare (primaryWeights (segment.name ++ back)) (primaryWeights (other.name ++ back')) =
      (segment.order other).then (compare (primaryWeights back) (primaryWeights back')) := by
  simp only [name, String.append_assoc]
  rw [compare_hex8 segment.timeline.isLt other.timeline.isLt,
    compare_hex8 segment.named other.named,
    compare_hex8 segment.remainder_lt other.remainder_lt, order,
    ← compare_div_mod layout.segmentsPerLog segment.number other.number]
  simp only [Ordering.then_assoc]

theorem primaryWeights_hex8 (n : ℕ) (back : String) :
    primaryWeights (hex8 n ++ back) =
      primaryWeight (hexDigit (n / 16 ^ 7 % 16)) :: primaryWeight (hexDigit (n / 16 ^ 6 % 16)) ::
        ((hexDigits 6 n).map primaryWeight ++ primaryWeights back) := by
  rw [primaryWeights_append]
  simp [primaryWeights, hex8, hexDigits_succ 7 n, hexDigits_succ 6 n]

/-- The letters of the suffix are 54 for `e` and 63 for `n`. -/
theorem primaryWeight_hexDigit_val {d : ℕ} (h : d < 16) :
    primaryWeight (hexDigit d) = if d < 10 then 33 + d else 40 + d := by
  have hall : ∀ d : Fin 16,
      primaryWeight (hexDigit d) = if d.val < 10 then 33 + d.val else 40 + d.val := by decide
  exact hall ⟨d, h⟩

theorem primaryWeights_suffix : primaryWeights encryptedSuffix = [8, 54, 63, 52] := by
  decide

/-- After the dot of a backup file comes the offset, and after that of a stored
segment the suffix. -/
theorem compare_backup (offset : Hex8) :
    compare (primaryWeights encryptedSuffix)
        (primaryWeights ("." ++ (hex8 offset ++ ".backup") ++ encryptedSuffix)) =
      if offset.val < 15 * 16 ^ 7 then .gt else .lt := by
  have hoffset := offset.isLt
  have hdot : primaryWeights "." = [8] := by decide
  have hlead : offset.val / 16 ^ 7 % 16 = offset.val / 16 ^ 7 := by omega
  have hfirst := primaryWeight_hexDigit_val (d := offset / 16 ^ 7) (by omega)
  have hsecond := primaryWeight_hexDigit_val (d := offset / 16 ^ 6 % 16) (by omega)
  simp only [String.append_assoc, primaryWeights_append "." _, hdot, primaryWeights_hex8,
    primaryWeights_suffix, hlead, hfirst, hsecond, List.cons_append, List.nil_append,
    List.compare_cons_cons]
  rcases Nat.lt_trichotomy (offset.val / 16 ^ 7) 14 with hlt | heq | hgt
  · rw [if_pos (by omega : offset.val < 15 * 16 ^ 7),
      Nat.compare_eq_gt.mpr (show _ < 54 by split <;> omega)]
    rfl
  · rw [if_pos (by omega : offset.val < 15 * 16 ^ 7), heq,
      Nat.compare_eq_gt.mpr (show _ < 63 by split <;> omega)]
    rfl
  · rw [if_neg (by omega : ¬offset.val < 15 * 16 ^ 7),
      Nat.compare_eq_lt.mpr (show 54 < _ by split <;> omega)]
    rfl

/-- The digits of the position stand after the dot of a history file. -/
theorem compare_history (log : ℕ) (back : String) :
    compare (primaryWeights (hex8 log ++ back)) (primaryWeights (".history" ++ encryptedSuffix)) =
      .gt := by
  have hdot : primaryWeights (".history" ++ encryptedSuffix) =
      8 :: primaryWeights ("history" ++ encryptedSuffix) := by decide
  have hfirst := primaryWeight_hexDigit_val (d := log / 16 ^ 7 % 16) (by omega)
  simp only [primaryWeights_hex8, hdot, hfirst, List.compare_cons_cons]
  rw [Nat.compare_eq_gt.mpr (show 8 < _ by split <;> omega), Ordering.gt_then]

theorem compareFile_eq_eq {file : WalFile layout} :
    segment.compareFile file = .eq ↔ file = .segment segment := by
  cases file with
  | segment other =>
      rw [compareFile, order_eq_eq, WalFile.segment.injEq]
      exact eq_comm
  | history timeline => simp [compareFile, Ordering.then_eq_eq]
  | backup other offset =>
      simp only [compareFile, Ordering.then_eq_eq, reduceCtorEq, iff_false, not_and]
      intro _
      split <;> simp
  | partialCopy other => simp [compareFile, Ordering.then_eq_eq]

/-- The names of files compare as their segments do. -/
theorem localeCompare_file (segment : WalSegment layout) (file : WalFile layout) :
    localeCompare (segment.name ++ encryptedSuffix) (file.name ++ encryptedSuffix) =
      segment.compareFile file := by
  cases file with
  | segment other =>
      cases horder : segment.order other with
      | eq =>
          obtain rfl := order_eq_eq.mp horder
          rw [WalFile.name, compareFile, horder]
          exact Std.ReflCmp.compare_self
      | lt | gt =>
          rw [compareFile, horder]
          refine localeCompare_of_primary ?_ (by simp)
          rw [WalFile.name, compare_name, horder]
          rfl
  | history timeline =>
      refine localeCompare_of_primary ?_ (by simp [compareFile, Ordering.then_eq_eq])
      rw [WalFile.name, name, String.append_assoc, String.append_assoc, String.append_assoc,
        compare_hex8 segment.timeline.isLt timeline.isLt, compare_history, compareFile]
  | backup other offset =>
      refine localeCompare_of_primary ?_ ?_
      · rw [WalFile.name, String.append_assoc, compare_name, compare_backup, compareFile]
      · simp [compareFile_eq_eq]
  | partialCopy other =>
      have hsuffix : compare (primaryWeights encryptedSuffix)
          (primaryWeights (".partial" ++ encryptedSuffix)) = .lt := by decide
      refine localeCompare_of_primary ?_ (by simp [compareFile, Ordering.then_eq_eq])
      rw [WalFile.name, String.append_assoc, compare_name, hsuffix, compareFile]

end WalSegment

/-- A WAL file as it is stored. -/
structure StoredWalFile (layout : WalLayout) where
  file : WalFile layout
  size : ℕ
  lastModified : String
  deriving DecidableEq

/-- Its entry in the listing of a store with some prefix. -/
def StoredWalFile.object (storePrefix : String) (stored : StoredWalFile layout) : StoredObject :=
  { key := storePrefix ++ walObjectKey stored.file.name, size := stored.size,
    lastModified := stored.lastModified }

theorem slash_not_mem_hexDigits (width n : ℕ) : '/' ∉ hexDigits width n := by
  have hdigit : ∀ d : Fin 16, '/' ≠ hexDigit d := by decide
  induction width generalizing n with
  | zero => exact List.not_mem_nil
  | succ width ih =>
      rw [hexDigits, List.mem_append, List.mem_singleton]
      exact not_or.mpr ⟨ih _, hdigit ⟨n % 16, Nat.mod_lt n (by decide)⟩⟩

theorem slash_not_mem_name (file : WalFile layout) : '/' ∉ file.name.toList := by
  cases file <;>
    simp [WalFile.name, WalSegment.name, hex8, slash_not_mem_hexDigits]

theorem afterLastSlash_append (front : List Char) {back : List Char} (h : '/' ∉ back) :
    afterLastSlash (front ++ '/' :: back) = back := by
  have hback : ∀ c ∈ back.reverse, decide (c ≠ '/') = true := fun c hc =>
    decide_eq_true fun heq => h (heq ▸ List.mem_reverse.mp hc)
  have hreverse : (front ++ '/' :: back).reverse = back.reverse ++ '/' :: front.reverse := by simp
  rw [afterLastSlash, hreverse, List.takeWhile_append_of_pos hback,
    List.takeWhile_cons_of_neg (by simp), List.append_nil, List.reverse_reverse]

theorem walSegmentName_key (storePrefix : String) {name : String} (h : '/' ∉ name.toList) :
    walSegmentName (storePrefix ++ walObjectKey name) = name := by
  have hkey : (storePrefix ++ walObjectKey name).toList =
      (storePrefix.toList ++ ['w', 'a', 'l']) ++ '/' ::
        (name.toList ++ encryptedSuffix.toList) := by
    simp [walObjectKey]
  have hsuffix : '/' ∉ name.toList ++ encryptedSuffix.toList := by
    rw [List.mem_append]
    exact not_or.mpr ⟨h, by decide⟩
  rw [walSegmentName, hkey, afterLastSlash_append _ hsuffix]
  rw [if_pos (List.isSuffixOf_iff_suffix.mpr (List.suffix_append _ _))]
  have hlength : (name.toList ++ encryptedSuffix.toList).length - encryptedSuffix.length =
      name.toList.length := by
    rw [List.length_append, String.length_toList, String.length_toList, Nat.add_sub_cancel]
  rw [hlength, List.take_left, String.ofList_toList]

section Summary

variable {storePrefix : String} {stored : List (StoredWalFile layout)}

theorem localeCompare_key (storePrefix : String) (left right : StoredWalFile layout) :
    localeCompare (left.object storePrefix).key (right.object storePrefix).key =
      localeCompare (left.file.name ++ encryptedSuffix) (right.file.name ++ encryptedSuffix) := by
  simp only [StoredWalFile.object, walObjectKey, localeCompare_append_left]

/-- The window goes from a first name of the listing to a last one. -/
theorem summariseWalWindow_ends (storePrefix : String) (h : stored ≠ []) :
    ∃ first ∈ stored, ∃ last ∈ stored,
    (summariseWalWindow (stored.map (StoredWalFile.object storePrefix))).earliestSegment =
        first.file.name ∧
      (summariseWalWindow (stored.map (StoredWalFile.object storePrefix))).latestSegment =
        last.file.name ∧
      ∀ other ∈ stored,
        (localeCompare (first.file.name ++ encryptedSuffix)
          (other.file.name ++ encryptedSuffix)).isLE ∧
        (localeCompare (other.file.name ++ encryptedSuffix)
          (last.file.name ++ encryptedSuffix)).isLE := by
  let objects := stored.map (StoredWalFile.object storePrefix)
  have hsorted := List.pairwise_insertionSort (NotAfter StoredObject.key) objects
  have hne : objects.insertionSort (NotAfter StoredObject.key) ≠ [] := by
    simpa [objects, ← List.length_eq_zero_iff] using h
  have hne' : objects.insertionSort (NotAfter StoredObject.lastModified) ≠ [] := by
    simpa [objects, ← List.length_eq_zero_iff] using h
  obtain ⟨first, hfirst⟩ := Option.ne_none_iff_exists'.mp (mt List.head?_eq_none_iff.mp hne)
  obtain ⟨last, hlast⟩ := Option.ne_none_iff_exists'.mp (mt List.getLast?_eq_none_iff.mp hne)
  obtain ⟨oldest, holdest⟩ := Option.ne_none_iff_exists'.mp (mt List.head?_eq_none_iff.mp hne')
  obtain ⟨newest, hnewest⟩ := Option.ne_none_iff_exists'.mp (mt List.getLast?_eq_none_iff.mp hne')
  have hmem : ∀ object ∈ objects.insertionSort (NotAfter StoredObject.key),
      ∃ source ∈ stored, source.object storePrefix = object := fun object hobject =>
    List.mem_map.mp ((List.mem_insertionSort _).mp hobject)
  obtain ⟨firstFile, hfirstFile, rfl⟩ := hmem first (List.mem_of_mem_head? hfirst)
  obtain ⟨lastFile, hlastFile, rfl⟩ := hmem last (List.mem_of_getLast? hlast)
  have hwindow : summariseWalWindow objects =
      { segments := objects.length
        earliestSegment := walSegmentName (firstFile.object storePrefix).key
        latestSegment := walSegmentName (lastFile.object storePrefix).key
        earliestArchivedAt := oldest.lastModified
        latestArchivedAt := newest.lastModified
        bytes := some (objects.map StoredObject.size).sum } := by
    simp only [summariseWalWindow, hfirst, hlast, holdest, hnewest]
  refine ⟨firstFile, hfirstFile, lastFile, hlastFile, ?_, ?_, fun other hother => ?_⟩
  · rw [hwindow]
    exact walSegmentName_key storePrefix (slash_not_mem_name _)
  · rw [hwindow]
    exact walSegmentName_key storePrefix (slash_not_mem_name _)
  · have hobject : other.object storePrefix ∈
        objects.insertionSort (NotAfter StoredObject.key) :=
      (List.mem_insertionSort _).mpr (List.mem_map_of_mem hother)
    rw [← localeCompare_key storePrefix firstFile other,
      ← localeCompare_key storePrefix other lastFile]
    exact ⟨head_le (r := NotAfter StoredObject.key) hsorted hfirst hobject,
      le_getLast (r := NotAfter StoredObject.key) hsorted hlast hobject⟩

end Summary

/-- The segments at the ends stand before and after all other names of the
archive, and every segment between them is there. -/
def SegmentsAtEnds (files : List (WalFile layout)) : Prop :=
  files = [] ∨ ∃ first last, .segment first ∈ files ∧ .segment last ∈ files ∧
    (∀ file ∈ files, (first.compareFile file).isLE ∧ (last.compareFile file).isGE) ∧
      Unbroken files first last

/-- Whatever is stored, the window is real exactly when there are segments at
its ends and none is missing between them. -/
theorem window_real_iff (storePrefix : String) (stored : List (StoredWalFile layout)) :
    WindowIsReal (stored.map StoredWalFile.file)
        (summariseWalWindow (stored.map (StoredWalFile.object storePrefix))) ↔
      SegmentsAtEnds (stored.map StoredWalFile.file) := by
  by_cases hempty : stored = []
  · subst hempty
    exact iff_of_true (.inl rfl) (.inl rfl)
  obtain ⟨head, hhead, final, hfinal, hearliest, hlatest, hends⟩ :=
    summariseWalWindow_ends storePrefix hempty
  refine or_congr Iff.rfl (exists_congr fun first => exists_congr fun last => ?_)
  refine and_congr_right fun hfirst => and_congr_right fun hlast => ?_
  rw [hearliest, hlatest, ← and_assoc, ← and_assoc]
  refine and_congr_left fun _ => ⟨?_, ?_⟩
  · rintro ⟨⟨hheadName, hfinalName⟩, -⟩ file hfile
    obtain ⟨other, hother, rfl⟩ := List.mem_map.mp hfile
    obtain ⟨hbefore, hafter⟩ := hends other hother
    rw [hheadName, WalSegment.localeCompare_file] at hbefore
    rw [hfinalName, localeCompare_swap,
      WalSegment.localeCompare_file] at hafter
    exact ⟨hbefore, by simpa using hafter⟩
  · intro hall
    obtain ⟨firstStored, hfirstStored, hfirstFile⟩ := List.mem_map.mp hfirst
    obtain ⟨lastStored, hlastStored, hlastFile⟩ := List.mem_map.mp hlast
    -- the names at the ends of the listing are those of the two segments
    have hheadFile : head.file = .segment first := by
      have hle := (hends firstStored hfirstStored).1
      rw [hfirstFile, ← Std.OrientedCmp.isGE_iff_isLE] at hle
      rw [← WalSegment.compareFile_eq_eq, ← WalSegment.localeCompare_file]
      refine Ordering.eq_eq_of_isLE_of_isGE ?_ hle
      rw [WalSegment.localeCompare_file]
      exact (hall head.file (List.mem_map_of_mem hhead)).1
    have hfinalFile : final.file = .segment last := by
      have hle := (hends lastStored hlastStored).2
      rw [hlastFile] at hle
      rw [← WalSegment.compareFile_eq_eq, ← WalSegment.localeCompare_file]
      refine Ordering.eq_eq_of_isLE_of_isGE hle ?_
      rw [WalSegment.localeCompare_file]
      exact (hall final.file (List.mem_map_of_mem hfinal)).2
    rw [hheadFile, hfinalFile]
    refine ⟨⟨rfl, rfl⟩, fun segment hsegment => hall (.segment segment) hsegment⟩

/-- Segments of 16 MiB. -/
def defaultLayout : WalLayout := ⟨256, by decide, by decide⟩

/-- The fifth segment of the first timeline, and the history of the second one,
which a promoted server archives before it completes a segment. -/
def promotedArchive : List (StoredWalFile defaultLayout) :=
  [{ file := .segment ⟨1, 5, by decide⟩, size := 16, lastModified := "2026-01-01T00:00:00.000Z" },
    { file := .history 2, size := 1, lastModified := "2026-01-01T00:01:00.000Z" }]

/-- The window ends with a file that is no segment. -/
theorem window_ends_at_history : ¬WindowIsReal (promotedArchive.map StoredWalFile.file)
    (summariseWalWindow (promotedArchive.map (StoredWalFile.object "orgistry/production/"))) := by
  have hlatest : (summariseWalWindow
      (promotedArchive.map (StoredWalFile.object "orgistry/production/"))).latestSegment =
        "00000002.history" := by decide
  rintro (hempty | ⟨first, last, -, -, -, hlast, -⟩)
  · cases hempty
  · have hlength := congrArg String.length (hlatest.symm.trans hlast)
    rw [show last.name.length = 24 by simp [WalSegment.name, hex8]] at hlength
    exact absurd hlength (by decide)

end Orgistry.Model
