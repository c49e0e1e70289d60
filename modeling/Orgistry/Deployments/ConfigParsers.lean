import Mathlib.Data.List.Induction
import Mathlib.Data.List.TakeWhile
import Orgistry.Model.ConfigFile

/-!
# Two parsers of one configuration

The backup tools and the deployment scripts read the same kind of file, one as
characters and one as bytes.  They agree on a file exactly when a line is malformed for
both and Bash does not give up the function before, or when no line is white space or a
comment for the first parser only, Bash takes every assignment, and its variables hold
the values that count as UTF-8.
-/

namespace Orgistry.Deployments

open Text Model

section Assigning

variable {α κ υ ε : Type} [DecidableEq κ]

/-- Each value is assigned in turn. -/
def assignAll (values entries : List (κ × υ)) : List (κ × υ) :=
  entries.foldl (fun values entry => assignValue values entry.1 entry.2) values

theorem mem_assignValue_iff {values : List (κ × υ)} {key : κ} {value : υ} {entry : κ × υ} :
    entry ∈ assignValue values key value ↔
      entry = (key, value) ∨ entry.1 ≠ key ∧ entry ∈ values := by
  unfold assignValue
  split
  · next hkey =>
      obtain ⟨old, hold, holdKey⟩ := List.mem_map.mp hkey
      simp only [List.mem_map]
      constructor
      · rintro ⟨other, hother, rfl⟩
        split
        · exact Or.inl rfl
        · next hne => exact Or.inr ⟨hne, hother⟩
      · rintro (rfl | ⟨hne, hentry⟩)
        · exact ⟨old, hold, if_pos holdKey⟩
        · exact ⟨entry, hentry, if_neg hne⟩
  · next hkey =>
      rw [List.mem_append, List.mem_singleton]
      constructor
      · rintro (hentry | rfl)
        · exact Or.inr ⟨fun h => hkey (List.mem_map.mpr ⟨entry, hentry, h⟩), hentry⟩
        · exact Or.inl rfl
      · rintro (rfl | ⟨-, hentry⟩)
        · exact Or.inr rfl
        · exact Or.inl hentry

/-- The value counts: its key is not assigned again. -/
def LastAssigned (entries : List (κ × υ)) (key : κ) (value : υ) : Prop :=
  ∃ before after, entries = before ++ (key, value) :: after ∧ key ∉ after.map Prod.fst

/-- Of several assignments to a key the last counts. -/
theorem mem_assignAll_iff {entries : List (κ × υ)} {key : κ} {value : υ} :
    (key, value) ∈ assignAll [] entries ↔ LastAssigned entries key value := by
  induction entries using List.reverseRecOn with
  | nil =>
      refine iff_of_false nofun ?_
      rintro ⟨before, after, hnil, -⟩
      simp at hnil
  | append_singleton entries last ih =>
      unfold assignAll at ih ⊢
      rw [List.foldl_append, List.foldl_cons, List.foldl_nil, mem_assignValue_iff, ih]
      constructor
      · rintro (hlast | ⟨hne, before, after, rfl, hafter⟩)
        · exact ⟨entries, [], by rw [hlast], List.not_mem_nil⟩
        · refine ⟨before, after ++ [last], by simp, ?_⟩
          rw [List.map_append, List.mem_append, not_or]
          exact ⟨hafter, by simpa using hne⟩
      · rintro ⟨before, after, hentries, hafter⟩
        rcases List.eq_nil_or_concat' after with rfl | ⟨after, other, rfl⟩
        · obtain ⟨-, hlast⟩ := List.append_inj' hentries rfl
          exact Or.inl (List.cons.inj hlast).1.symm
        · rw [← List.cons_append, ← List.append_assoc] at hentries
          obtain ⟨rfl, hlast⟩ := List.append_inj' hentries rfl
          obtain rfl := (List.cons.inj hlast).1
          rw [List.map_append, List.mem_append, not_or] at hafter
          exact Or.inr ⟨by simpa using hafter.2, before, after, rfl, hafter.1⟩

/-- Every assigned key has a value. -/
theorem mem_keys_assignAll {entries : List (κ × υ)} {key : κ} :
    key ∈ (assignAll [] entries).map Prod.fst ↔ key ∈ entries.map Prod.fst := by
  induction entries using List.reverseRecOn with
  | nil => exact Iff.rfl
  | append_singleton entries last ih =>
      unfold assignAll at ih ⊢
      rw [List.foldl_append, List.map_append, List.mem_append, ← ih, List.map_singleton,
        List.mem_singleton, List.foldl_cons, List.foldl_nil]
      simp only [List.mem_map, mem_assignValue_iff]
      constructor
      · rintro ⟨entry, rfl | ⟨-, hentry⟩, rfl⟩
        · exact Or.inr rfl
        · exact Or.inl ⟨entry, hentry, rfl⟩
      · rintro (⟨entry, hentry, rfl⟩ | rfl)
        · by_cases hkey : entry.1 = last.1
          · exact ⟨(last.1, last.2), Or.inl rfl, hkey.symm⟩
          · exact ⟨entry, Or.inr ⟨hkey, hentry⟩, rfl⟩
        · exact ⟨(last.1, last.2), Or.inl rfl, rfl⟩

variable {κ' υ' : Type} [DecidableEq κ'] {f : κ → κ'} {g : κ → υ → υ'}

/-- An entry with another key and another value. -/
def renameEntry (f : κ → κ') (g : κ → υ → υ') (entry : κ × υ) : κ' × υ' :=
  (f entry.1, g entry.1 entry.2)

theorem assignValue_map {values : List (κ × υ)} {key : κ} {value : υ}
    (hinj : ∀ entry ∈ values, f entry.1 = f key → entry.1 = key) :
    assignValue (values.map (renameEntry f g)) (f key) (g key value) =
      (assignValue values key value).map (renameEntry f g) := by
  have hmem : f key ∈ (values.map (renameEntry f g)).map Prod.fst ↔
      key ∈ values.map Prod.fst := by
    simp only [List.mem_map, Prod.exists, renameEntry]
    constructor
    · rintro ⟨_, _, ⟨key', value', hentry, hpair⟩, hkey⟩
      cases hpair
      exact ⟨key', value', hentry, hinj _ hentry hkey⟩
    · rintro ⟨key', value', hentry, rfl⟩
      exact ⟨_, _, ⟨key', value', hentry, rfl⟩, rfl⟩
  unfold assignValue
  by_cases hkey : key ∈ values.map Prod.fst
  · rw [if_pos (hmem.mpr hkey), if_pos hkey, List.map_map, List.map_map]
    refine List.map_congr_left fun entry hentry => ?_
    by_cases heq : entry.1 = key
    · simp [renameEntry, heq]
    · simp [renameEntry, heq, mt (hinj entry hentry) heq]
  · rw [if_neg (mt hmem.mp hkey), if_neg hkey, List.map_append]
    rfl

/-- Renaming keys apart changes nothing about what is assigned. -/
theorem assignAll_map {entries : List (κ × υ)}
    (hinj : ∀ a ∈ entries, ∀ b ∈ entries, f a.1 = f b.1 → a.1 = b.1) :
    assignAll [] (entries.map (renameEntry f g)) =
      (assignAll [] entries).map (renameEntry f g) := by
  induction entries using List.reverseRecOn with
  | nil => rfl
  | append_singleton entries entry ih =>
      have ih := ih fun a ha b hb =>
        hinj a (List.mem_append_left _ ha) b (List.mem_append_left _ hb)
      unfold assignAll at ih ⊢
      rw [List.map_append, List.foldl_append, ih, List.foldl_append]
      refine assignValue_map fun old hold hkeys => ?_
      obtain ⟨before, after, hentries, -⟩ :=
        mem_assignAll_iff.mp (show (old.1, old.2) ∈ _ from hold)
      refine hinj old ?_ entry (by simp) hkeys
      rw [hentries]
      simp

variable {readLine : ℕ → α → Except ε (Option (κ × υ))}
  {assigned : α × ℕ → Option (κ × υ)}

theorem readLines_eq_ok (index : ℕ) (values : List (κ × υ)) (lines : List α)
    (h : ∀ line ∈ lines.zipIdx index, readLine line.2 line.1 = .ok (assigned line)) :
    readLines readLine index values lines =
      .ok (assignAll values ((lines.zipIdx index).filterMap assigned)) := by
  induction lines generalizing index values with
  | nil => rfl
  | cons line rest ih =>
      rw [List.zipIdx_cons] at h ⊢
      have ih := fun values => ih (index + 1) values fun other hother =>
        h other (List.mem_cons_of_mem (line, index) hother)
      rw [readLines, h (line, index) List.mem_cons_self]
      cases hentry : assigned (line, index) with
      | none =>
          rw [List.filterMap_cons_none hentry]
          exact ih values
      | some entry =>
          rw [List.filterMap_cons_some hentry]
          exact ih (assignValue values entry.1 entry.2)

/-- The first line that cannot be read. -/
def StopsAt (readLine : ℕ → α → Except ε (Option (κ × υ))) (index : ℕ) (lines : List α)
    (error : ε) : Prop :=
  ∃ front line back, lines = front ++ line :: back ∧
    (∀ earlier ∈ front.zipIdx index, ∃ made, readLine earlier.2 earlier.1 = .ok made) ∧
      readLine (index + front.length) line = .error error

/-- The first line with an error ends the reading. -/
theorem StopsAt.readLines_eq {index : ℕ} {lines : List α} {error : ε}
    (h : StopsAt readLine index lines error) (values : List (κ × υ)) :
    readLines readLine index values lines = .error error := by
  obtain ⟨front, line, back, rfl, hfront, hline⟩ := h
  induction front generalizing index values with
  | nil =>
      rw [List.nil_append, readLines]
      rw [List.length_nil, Nat.add_zero] at hline
      rw [hline]
  | cons first front ih =>
      rw [List.zipIdx_cons] at hfront
      obtain ⟨made, hmade⟩ := hfront (first, index) List.mem_cons_self
      have ih : ∀ values, readLines readLine (index + 1) values (front ++ line :: back) =
          .error error := fun values => ih values
        (fun earlier hearlier => hfront earlier (List.mem_cons_of_mem _ hearlier))
        (by rwa [List.length_cons, Nat.add_comm front.length, ← Nat.add_assoc] at hline)
      rw [List.cons_append, readLines, hmade]
      cases made with
      | none => exact ih values
      | some entry => exact ih (assignValue values entry.1 entry.2)

omit [DecidableEq κ] in
/-- All lines can be read, or one is the first that cannot. -/
theorem readable_or_stopsAt (readLine : ℕ → α → Except ε (Option (κ × υ))) (index : ℕ)
    (lines : List α) :
    (∀ line ∈ lines.zipIdx index, ∃ made, readLine line.2 line.1 = .ok made) ∨
      ∃ error, StopsAt readLine index lines error := by
  induction lines generalizing index with
  | nil => exact Or.inl nofun
  | cons line rest ih =>
      cases hline : readLine index line with
      | error error => exact Or.inr ⟨error, [], line, rest, rfl, nofun, hline⟩
      | ok made =>
          rcases ih (index + 1) with hall | ⟨error, front, other, back, rfl, hfront, hother⟩
          · refine Or.inl fun numbered hnumbered => ?_
            rw [List.zipIdx_cons] at hnumbered
            rcases List.mem_cons.mp hnumbered with rfl | hnumbered
            · exact ⟨made, hline⟩
            · exact hall numbered hnumbered
          · refine Or.inr ⟨error, line :: front, other, back, rfl, fun earlier hearlier => ?_, ?_⟩
            · rw [List.zipIdx_cons] at hearlier
              rcases List.mem_cons.mp hearlier with rfl | hearlier
              · exact ⟨made, hline⟩
              · exact hfront earlier hearlier
            · rwa [List.length_cons, Nat.add_comm front.length, ← Nat.add_assoc]

/-- A last line that assigns nothing can be left out. -/
theorem readLines_append_ignored {last : α} (hlast : ∀ index, readLine index last = .ok none)
    (index : ℕ) (values : List (κ × υ)) (lines : List α) :
    readLines readLine index values (lines ++ [last]) = readLines readLine index values lines := by
  induction lines generalizing index values with
  | nil =>
      simp only [List.nil_append, readLines, hlast]
  | cons line rest ih =>
      rw [List.cons_append, readLines, readLines]
      split
      · rfl
      · exact ih _ _
      · exact ih _ _

theorem readLines_map {β : Type} (f : β → α) (index : ℕ) (values : List (κ × υ)) (lines : List β) :
    readLines readLine index values (lines.map f) =
      readLines (fun index => readLine index ∘ f) index values lines := by
  induction lines generalizing index values with
  | nil => rfl
  | cons line rest ih =>
      rw [List.map_cons, readLines, readLines, Function.comp_apply]
      split
      · rfl
      · exact ih _ _
      · exact ih _ _

theorem readLines_eq_error (index : ℕ) (values : List (κ × υ)) {lines : List α} {line : α}
    (hline : line ∈ lines) (h : ∀ index, ∃ error, readLine index line = .error error) :
    ∃ error, readLines readLine index values lines = .error error := by
  induction lines generalizing index values with
  | nil => cases hline
  | cons first rest ih =>
      rw [readLines]
      rcases List.mem_cons.mp hline with rfl | hline
      · obtain ⟨error, herror⟩ := h index
        rw [herror]
        exact ⟨error, rfl⟩
      · split
        · exact ⟨_, rfl⟩
        · exact ih _ _ hline
        · exact ih _ _ hline

end Assigning

/-! ## Lines -/

open DeployConfig (carriageReturn equalsSign numberSign newline)

/-- The lines of a file without their carriage returns. -/
def fileLines (file : ConfigFile) : List (List Byte) :=
  (splitOn newline file.content).map (chomp carriageReturn)

/-- The assignment that a line makes, if it is of the common form. -/
def assignmentOf (line : List Byte) : Option (List Byte × List Byte) :=
  match cut equalsSign line with
  | none => none
  | some (key, value) =>
      if DeployConfig.isKey key then some (key, DeployConfig.stripQuotes value) else none

/-- No comment and no assignment for either parser. -/
def Malformed (line : List Byte) : Prop :=
  BackupConfig.isIgnored (decodeUtf8 line) = false ∧ assignmentOf line = none

theorem keyByte_ascii {b : Byte} (h : DeployConfig.isUpper b || DeployConfig.isDigit b ||
    decide (b.val = 95)) : b.val < 0x80 := by
  unfold DeployConfig.isUpper DeployConfig.isDigit at h
  simp only [Bool.or_eq_true, Bool.and_eq_true, decide_eq_true_eq] at h
  omega

theorem keyChar_notLong {c : Char} (h : BackupConfig.isUpper c || BackupConfig.isDigit c ||
    decide (c = '_')) : ¬ IsLong c := by
  unfold BackupConfig.isUpper BackupConfig.isDigit at h
  unfold IsLong
  simp only [Bool.or_eq_true, Bool.and_eq_true, decide_eq_true_eq, Char.le_def,
    UInt32.le_iff_toNat_le] at h
  rcases h with (⟨-, h⟩ | ⟨-, h⟩) | rfl
  · exact Nat.not_le.mpr (Nat.lt_of_le_of_lt h (by decide))
  · exact Nat.not_le.mpr (Nat.lt_of_le_of_lt h (by decide))
  · decide

theorem isUpper_asciiChar {b : Byte} :
    b.val < 0x80 → BackupConfig.isUpper (asciiChar b) = DeployConfig.isUpper b := by
  revert b
  decide +kernel

theorem keyChar_asciiChar {b : Byte} : b.val < 0x80 →
    (BackupConfig.isUpper (asciiChar b) || BackupConfig.isDigit (asciiChar b) ||
      decide (asciiChar b = '_')) =
    (DeployConfig.isUpper b || DeployConfig.isDigit b || decide (b.val = 95)) := by
  revert b
  decide +kernel

theorem ascii_of_isKey {key : List Byte} (h : DeployConfig.isKey key) :
    ∀ b ∈ key, b.val < 0x80 := by
  cases key with
  | nil => exact nofun
  | cons first rest =>
      unfold DeployConfig.isKey at h
      rw [Bool.and_eq_true, List.all_eq_true] at h
      intro b hb
      rcases List.mem_cons.mp hb with rfl | hb
      · exact keyByte_ascii (by rw [h.1]; rfl)
      · exact keyByte_ascii (h.2 b hb)

theorem notLong_of_isKey {key : List Char} (h : BackupConfig.isKey key) :
    ∀ c ∈ key, ¬ IsLong c := by
  cases key with
  | nil => exact nofun
  | cons first rest =>
      unfold BackupConfig.isKey at h
      rw [Bool.and_eq_true, List.all_eq_true] at h
      intro c hc
      rcases List.mem_cons.mp hc with rfl | hc
      · exact keyChar_notLong (by rw [h.1]; rfl)
      · exact keyChar_notLong (h.2 c hc)

/-- A key is the same for both. -/
theorem isKey_decode (key : List Byte) :
    BackupConfig.isKey (decodeUtf8 key) = DeployConfig.isKey key := by
  by_cases hascii : ∀ b ∈ key, b.val < 0x80
  · rw [decode_of_ascii hascii]
    cases key with
    | nil => rfl
    | cons first rest =>
        rw [List.map_cons, BackupConfig.isKey, DeployConfig.isKey, List.all_map,
          isUpper_asciiChar (hascii first List.mem_cons_self)]
        congr 1
        rw [Bool.eq_iff_iff, List.all_eq_true, List.all_eq_true]
        refine forall₂_congr fun b hb => ?_
        rw [Function.comp_apply, keyChar_asciiChar (hascii b (List.mem_cons_of_mem first hb))]
  · rw [Bool.eq_false_iff.mpr (mt ascii_of_isKey hascii), Bool.eq_false_iff]
    exact fun h => hascii (ascii_of_decode (notLong_of_isKey h))

theorem stripQuotes_decode (value : List Byte) :
    BackupConfig.stripQuotes (decodeUtf8 value) = decodeUtf8 (DeployConfig.stripQuotes value) := by
  have hdouble : unquote (Char.ofNat 34) (decodeUtf8 value) =
      (unquote (byte 34) value).map decodeUtf8 := unquote_decode (b := byte 34) (by decide) value
  have hsingle : unquote (Char.ofNat 39) (decodeUtf8 value) =
      (unquote (byte 39) value).map decodeUtf8 := unquote_decode (b := byte 39) (by decide) value
  unfold BackupConfig.stripQuotes DeployConfig.stripQuotes
  rw [hdouble, hsingle]
  cases unquote (byte 34) value with
  | some inner => rfl
  | none =>
      cases unquote (byte 39) value with
      | some inner => rfl
      | none => rfl

theorem not_isWhiteSpace_of_isUpper {b : Byte} : DeployConfig.isUpper b = true →
    isWhiteSpace (asciiChar b) = false := by
  revert b
  decide +kernel

theorem trim_ne_nil {c : Char} (h : isWhiteSpace c = false) (rest : List Char) :
    BackupConfig.trim (c :: rest) ≠ [] := by
  unfold BackupConfig.trim BackupConfig.trimStart
  rw [List.dropWhile_cons_of_neg (by simp [h]), Ne, List.reverse_eq_nil_iff,
    List.dropWhile_eq_nil_iff]
  intro hall
  rw [hall c (by simp)] at h
  cases h

/-- What the shell ignores is ignored by the other parser. -/
theorem isIgnored_decode {line : List Byte} (h : DeployConfig.isIgnored line) :
    BackupConfig.isIgnored (decodeUtf8 line) := by
  cases line with
  | nil => rfl
  | cons b rest =>
      unfold DeployConfig.isIgnored at h
      obtain rfl : b = numberSign := by simpa using h
      rw [decode_cons_ascii (by decide), BackupConfig.isIgnored, BackupConfig.trimStart,
        List.dropWhile_cons_of_neg (by decide)]
      rw [show asciiChar numberSign = '#' from rfl, List.head?_cons, decide_eq_true rfl,
        Bool.or_true]

/-- What is ignored is no assignment. -/
theorem assignmentOf_eq_none {line : List Byte} (h : BackupConfig.isIgnored (decodeUtf8 line)) :
    assignmentOf line = none := by
  unfold assignmentOf
  split
  · rfl
  · next key value hcut =>
      rw [if_neg]
      intro hkey
      obtain rfl := eq_of_cut hcut
      cases key with
      | nil => cases hkey
      | cons b key =>
          have hascii := ascii_of_isKey hkey b List.mem_cons_self
          rw [List.cons_append, decode_cons_ascii hascii] at h
          have hupper : DeployConfig.isUpper b := by
            unfold DeployConfig.isKey at hkey
            exact (Bool.and_eq_true_iff.mp hkey).1
          have hspace := not_isWhiteSpace_of_isUpper hupper
          unfold BackupConfig.isIgnored BackupConfig.trimStart at h
          rw [Bool.or_eq_true, decide_eq_true_eq, decide_eq_true_eq,
            List.dropWhile_cons_of_neg (by simp [hspace]), List.head?_cons] at h
          rcases h with h | h
          · exact trim_ne_nil hspace _ h
          · obtain rfl := asciiChar_injective (b := numberSign) hascii (by decide)
              (Option.some.inj h)
            cases hupper

section OneLine

variable {rawLine : List Byte}

theorem chomp_decode_line : chomp '\r' (decodeUtf8 rawLine) =
    decodeUtf8 (chomp carriageReturn rawLine) := chomp_decode (b := carriageReturn) (by decide) _

theorem cut_decode_line (line : List Byte) : cut '=' (decodeUtf8 line) =
    (cut equalsSign line).map (Prod.map decodeUtf8 decodeUtf8) :=
  cut_decode (b := equalsSign) (by decide) _

/-- A line that is not malformed is read by its bytes. -/
theorem parseLine_eq_ok (sourceLabel : List Char) (index : ℕ)
    (h : ¬ Malformed (chomp carriageReturn rawLine)) :
    BackupConfig.parseLine sourceLabel index (decodeUtf8 rawLine) =
      .ok ((assignmentOf (chomp carriageReturn rawLine)).map (Prod.map decodeUtf8 decodeUtf8)) := by
  unfold BackupConfig.parseLine
  rw [chomp_decode_line]
  dsimp only
  split
  · next hignored => rw [assignmentOf_eq_none hignored, Option.map_none]
  · next hignored =>
      have hassigned : assignmentOf (chomp carriageReturn rawLine) ≠ none := fun hnone =>
        h ⟨Bool.eq_false_iff.mpr hignored, hnone⟩
      unfold assignmentOf at hassigned ⊢
      rw [cut_decode_line]
      cases hcut : cut equalsSign (chomp carriageReturn rawLine) with
      | none => simp [hcut] at hassigned
      | some parts =>
          obtain ⟨key, value⟩ := parts
          simp only [hcut] at hassigned
          have hkey : DeployConfig.isKey key = true := by
            by_contra hkey
            exact hassigned (if_neg hkey)
          simp only [Option.map_some, Prod.map_apply, isKey_decode, hkey, if_true,
            stripQuotes_decode]

/-- A malformed line is refused. -/
theorem parseLine_eq_error (sourceLabel : List Char) (index : ℕ)
    (h : Malformed (chomp carriageReturn rawLine)) :
    ∃ error, BackupConfig.parseLine sourceLabel index (decodeUtf8 rawLine) = .error error := by
  obtain ⟨hignored, hassigned⟩ := h
  unfold BackupConfig.parseLine
  rw [chomp_decode_line]
  dsimp only
  rw [if_neg (Bool.eq_false_iff.mp hignored), cut_decode_line]
  unfold assignmentOf at hassigned
  cases hcut : cut equalsSign (chomp carriageReturn rawLine) with
  | none => exact ⟨_, rfl⟩
  | some parts =>
      obtain ⟨key, value⟩ := parts
      simp only [hcut] at hassigned
      have hkey : DeployConfig.isKey key ≠ true := by
        intro hkey
        rw [if_pos hkey] at hassigned
        cases hassigned
      simp only [Option.map_some, Prod.map_apply, isKey_decode, hkey]
      exact ⟨_, rfl⟩

end OneLine

section ShellLine

open DeployConfig (Shell exportVariable)

variable (shell : Shell) (configPath : List Byte) {line : List Byte} {lineNumber : ℕ}

/-- `loadLine` behind the carriage return. -/
def loadChomped (lineNumber : ℕ) (line : List Byte) :
    Except DeployConfig.Exit (Option (List Byte × List Byte)) :=
  if DeployConfig.isIgnored line then .ok none
  else
    match cut equalsSign line with
    | none => .error (.died (DeployConfig.notKeyValue configPath lineNumber))
    | some (key, value) =>
        if !DeployConfig.isKey key then
          .error (.died (DeployConfig.invalidKey configPath lineNumber key))
        else exportVariable shell lineNumber key (DeployConfig.stripQuotes value)

theorem loadChomped_of_isIgnored (h : DeployConfig.isIgnored line) :
    loadChomped shell configPath lineNumber line = .ok none := if_pos h

/-- An assignment is exported. -/
theorem loadChomped_of_assignment {key value : List Byte}
    (h : assignmentOf line = some (key, value)) :
    loadChomped shell configPath lineNumber line =
      exportVariable shell lineNumber key value := by
  have hignored : ¬ DeployConfig.isIgnored line := fun hignored => by
    rw [assignmentOf_eq_none (isIgnored_decode hignored)] at h
    cases h
  unfold loadChomped
  rw [if_neg hignored]
  unfold assignmentOf at h
  cases hcut : cut equalsSign line with
  | none => simp [hcut] at h
  | some parts =>
      obtain ⟨key', value'⟩ := parts
      simp only [hcut] at h
      split at h
      · next hkey =>
          cases h
          simp [hkey]
      · cases h

theorem loadChomped_of_none (lineNumber : ℕ) (hignored : DeployConfig.isIgnored line = false)
    (h : assignmentOf line = none) :
    ∃ message, loadChomped shell configPath lineNumber line = .error (.died message) := by
  unfold loadChomped
  rw [if_neg (Bool.eq_false_iff.mp hignored)]
  unfold assignmentOf at h
  cases hcut : cut equalsSign line with
  | none => exact ⟨_, rfl⟩
  | some parts =>
      obtain ⟨key, value⟩ := parts
      simp only [hcut] at h
      split at h
      · cases h
      · next hkey =>
          refine ⟨DeployConfig.invalidKey configPath lineNumber key, ?_⟩
          simp [hkey]

/-- A line that both have to reject is rejected by the shell. -/
theorem loadChomped_of_malformed (lineNumber : ℕ) (h : Malformed line) :
    ∃ message, loadChomped shell configPath lineNumber line = .error (.died message) := by
  refine loadChomped_of_none shell configPath lineNumber
    (Bool.eq_false_iff.mpr fun hignored => ?_) h.2
  have hboth := isIgnored_decode hignored
  rw [h.1] at hboth
  cases hboth

/-- A variable to which assignments have no effect is never exported. -/
theorem fixed_of_exportVariable {key value : List Byte}
    (h : exportVariable shell lineNumber key value = .ok none) :
    ∀ lineNumber value made, exportVariable shell lineNumber key value ≠ .ok (some made) := by
  intro lineNumber' value' made hmade
  unfold exportVariable at h hmade
  split at h
  · cases h
  · next hwritable =>
      rw [if_neg hwritable] at hmade
      split at h
      · next hfixed =>
          rw [if_pos hfixed] at hmade
          cases hmade
      · split at h
        · split at h <;> cases h
        · cases h

theorem key_of_exportVariable {key value key' value' : List Byte}
    (h : exportVariable shell lineNumber key value = .ok (some (key', value'))) : key' = key := by
  unfold exportVariable at h
  split at h
  · cases h
  split at h
  · cases h
  split at h
  · split at h <;> cases h
    rfl
  · cases h
    rfl

end ShellLine

/-! ## Whole files -/

section WholeFiles

open DeployConfig (Shell exportVariable)

variable (shell : Shell) (file : ConfigFile)

/-- Both reject the file, or what one exports is what the other returns, in UTF-8. -/
def ParsersAgree (sourceLabel : List Char) (configPath : List Byte) : Prop :=
  match BackupConfig.loadConfigFile file sourceLabel,
      DeployConfig.deployLoadConfig shell configPath file with
  | .error _, .error exit => exit.rejects
  | .ok values, .ok exported => exported = values.map (Prod.map encodeUtf8 encodeUtf8)
  | _, _ => False

/-- The assignments of the file, each with the number of its line. -/
def assignmentsOf : List (List Byte × ℕ × List Byte) :=
  ((fileLines file).zipIdx 1).filterMap fun (line, lineNumber) =>
    (assignmentOf line).map fun (key, value) => (key, lineNumber, value)

/-- The shell can read the line and export its variable. -/
def Loadable (line : List Byte) (lineNumber : ℕ) : Prop :=
  (DeployConfig.isIgnored line = false → assignmentOf line ≠ none) ∧
    ∀ key value, assignmentOf line = some (key, value) →
      ∃ made, exportVariable shell lineNumber key value = .ok made

/-- Bash gives up the function at a line, before it has rejected one. -/
def GivenUp : Prop :=
  ∃ front line back key value, fileLines file = front ++ line :: back ∧
    (∀ earlier ∈ front.zipIdx 1, Loadable shell earlier.1 earlier.2) ∧
      assignmentOf line = some (key, value) ∧
        ∃ exit, exportVariable shell (1 + front.length) key value = .error exit ∧
          exit.rejects = false

/-- Nothing in the file is read in two ways. -/
structure Portable : Prop where
  wellFormed : ∀ line ∈ fileLines file, ¬ Malformed line
  /-- No line is blank or a comment to one parser only. -/
  ignored : ∀ line ∈ fileLines file, BackupConfig.isIgnored (decodeUtf8 line) →
    DeployConfig.isIgnored line
  taken : ∀ key lineNumber value, (key, lineNumber, value) ∈ assignmentsOf file →
    ∃ made, exportVariable shell lineNumber key value = .ok (some made)
  /-- The value that counts is held as text. -/
  held : ∀ key lineNumber value, LastAssigned (assignmentsOf file) key (lineNumber, value) →
    exportVariable shell lineNumber key value =
      .ok (some (key, encodeUtf8 (decodeUtf8 value)))

theorem mem_assignmentsOf {key value : List Byte} {lineNumber : ℕ} :
    (key, lineNumber, value) ∈ assignmentsOf file ↔
      ∃ line, (line, lineNumber) ∈ (fileLines file).zipIdx 1 ∧
        assignmentOf line = some (key, value) := by
  unfold assignmentsOf
  rw [List.mem_filterMap]
  constructor
  · rintro ⟨⟨line, number⟩, hline, hassigned⟩
    obtain ⟨⟨key', value'⟩, hentry, hsame⟩ := Option.map_eq_some_iff.mp hassigned
    cases hsame
    exact ⟨line, hline, hentry⟩
  · rintro ⟨line, hline, hassigned⟩
    refine ⟨(line, lineNumber), hline, ?_⟩
    dsimp only
    rw [hassigned]
    rfl

theorem isKey_of_assignmentOf {line key value : List Byte}
    (h : assignmentOf line = some (key, value)) : DeployConfig.isKey key := by
  unfold assignmentOf at h
  split at h
  · cases h
  · split at h
    · next hkey =>
        cases h
        exact hkey
    · cases h

theorem encode_decode_key {key value : List Byte} {lineNumber : ℕ}
    (h : (key, lineNumber, value) ∈ assignmentsOf file) : encodeUtf8 (decodeUtf8 key) = key := by
  obtain ⟨line, -, hassigned⟩ := (mem_assignmentsOf file).mp h
  exact encode_decode_of_ascii (ascii_of_isKey (isKey_of_assignmentOf hassigned))

theorem loadConfigFile_eq (sourceLabel : List Char) :
    BackupConfig.loadConfigFile file sourceLabel =
      readLines (fun index => BackupConfig.parseLine sourceLabel index ∘ decodeUtf8) 0 []
        (splitOn newline file.content) := by
  have hsplit : splitOn '\n' (decodeUtf8 file.content) =
      (splitOn newline file.content).map decodeUtf8 :=
    splitOn_decode (b := newline) (by decide) file.content
  unfold BackupConfig.loadConfigFile BackupConfig.parseConfigFile
  rw [hsplit, readLines_map]

theorem loadConfigFile_eq_error (sourceLabel : List Char)
    (h : ∃ line ∈ fileLines file, Malformed line) :
    ∃ error, BackupConfig.loadConfigFile file sourceLabel = .error error := by
  obtain ⟨line, hline, hmalformed⟩ := h
  obtain ⟨rawLine, hraw, rfl⟩ := List.mem_map.mp hline
  rw [loadConfigFile_eq]
  exact readLines_eq_error 0 [] hraw fun index => parseLine_eq_error sourceLabel index hmalformed

/-- What the backup tools return, in UTF-8. -/
def returned : List (List Byte × List Byte) :=
  (assignAll [] (assignmentsOf file)).map
    (renameEntry id fun _ assigned => encodeUtf8 (decodeUtf8 assigned.2))

/-- The assignments without the numbers of their lines. -/
theorem map_assignmentsOf {υ' : Type} (f : List Byte → List Char) (g : List Byte → υ') :
    (assignmentsOf file).map (renameEntry f fun _ assigned => g assigned.2) =
      (fileLines file).filterMap fun line => (assignmentOf line).map (Prod.map f g) := by
  unfold assignmentsOf
  rw [List.map_filterMap]
  conv_rhs => rw [← List.zipIdx_map_fst 1 (fileLines file), List.filterMap_map]
  refine List.filterMap_congr fun numbered _ => ?_
  rw [Function.comp_apply, Option.map_map]
  rfl

/-- The JavaScript parser accepts every file without malformed lines. -/
theorem loadConfigFile_eq_ok (sourceLabel : List Char)
    (h : ∀ line ∈ fileLines file, ¬ Malformed line) :
    ∃ values, BackupConfig.loadConfigFile file sourceLabel = .ok values ∧
      values.map (Prod.map encodeUtf8 encodeUtf8) = returned file := by
  have hlines : ∀ numbered ∈ (splitOn newline file.content).zipIdx 0,
      (BackupConfig.parseLine sourceLabel numbered.2 ∘ decodeUtf8) numbered.1 =
        .ok ((assignmentOf (chomp carriageReturn numbered.1)).map
          (Prod.map decodeUtf8 decodeUtf8)) := fun numbered hnumbered =>
    parseLine_eq_ok sourceLabel numbered.2
      (h _ (List.mem_map_of_mem (List.fst_mem_of_mem_zipIdx hnumbered)))
  have hentries : ((splitOn newline file.content).zipIdx 0).filterMap (fun numbered =>
      (assignmentOf (chomp carriageReturn numbered.1)).map (Prod.map decodeUtf8 decodeUtf8)) =
      (assignmentsOf file).map (renameEntry decodeUtf8 fun _ assigned =>
        decodeUtf8 assigned.2) := by
    rw [map_assignmentsOf, fileLines, List.filterMap_map]
    conv_rhs => rw [← List.zipIdx_map_fst 0 (splitOn newline file.content), List.filterMap_map]
    rfl
  refine ⟨_, (loadConfigFile_eq file sourceLabel).trans (readLines_eq_ok 0 [] _ hlines), ?_⟩
  rw [hentries, assignAll_map, List.map_map, returned]
  · refine List.map_congr_left fun ⟨key, lineNumber, value⟩ hentry => ?_
    obtain ⟨before, after, hentries, -⟩ := mem_assignAll_iff.mp hentry
    have hkey : (key, lineNumber, value) ∈ assignmentsOf file := by
      rw [hentries]
      simp
    exact Prod.ext (encode_decode_key file hkey) rfl
  · -- keys are ASCII, so decoding keeps them apart
    intro a ha b hb hkeys
    rw [← encode_decode_key file ha, ← encode_decode_key file hb, hkeys]

theorem linesOf_cases (content : List Byte) :
    DeployConfig.linesOf content = splitOn newline content ∨
      splitOn newline content = DeployConfig.linesOf content ++ [[]] := by
  unfold DeployConfig.linesOf
  split
  · next hlast =>
      obtain ⟨front, hfront⟩ := List.getLast?_eq_some_iff.mp hlast
      right
      rw [hfront, List.dropLast_concat]
  · exact Or.inl rfl

theorem deployLoadConfig_eq (configPath : List Byte) :
    DeployConfig.deployLoadConfig shell configPath file =
      readLines (loadChomped shell configPath) 1 [] (fileLines file) := by
  have hread : DeployConfig.deployLoadConfig shell configPath file =
      readLines (DeployConfig.loadLine shell configPath) 1 [] (splitOn newline file.content) := by
    unfold DeployConfig.deployLoadConfig
    rcases linesOf_cases file.content with hlines | hlines
    · rw [hlines]
    · have hlast : ∀ lineNumber, DeployConfig.loadLine shell configPath lineNumber [] = .ok none :=
        fun _ => rfl
      rw [hlines, readLines_append_ignored hlast]
  rw [hread, fileLines, readLines_map]
  rfl

/-- A line is loadable when the shell gets past it. -/
theorem loadable_iff {line : List Byte} {lineNumber : ℕ} (configPath : List Byte) :
    Loadable shell line lineNumber ↔
      ∃ made, loadChomped shell configPath lineNumber line = .ok made := by
  cases hassigned : assignmentOf line with
  | none =>
      cases hignored : DeployConfig.isIgnored line with
      | true =>
          refine iff_of_true ⟨fun h => ?_, fun _ _ h => ?_⟩
            ⟨none, loadChomped_of_isIgnored shell configPath hignored⟩
          · rw [hignored] at h
            cases h
          · rw [hassigned] at h
            cases h
      | false =>
          obtain ⟨message, hdied⟩ :=
            loadChomped_of_none shell configPath lineNumber hignored hassigned
          refine iff_of_false (fun h => h.1 hignored hassigned) ?_
          rintro ⟨made, hmade⟩
          rw [hdied] at hmade
          cases hmade
  | some entry =>
      obtain ⟨key, value⟩ := entry
      rw [loadChomped_of_assignment shell configPath hassigned]
      constructor
      · exact fun h => h.2 key value hassigned
      · refine fun h => ⟨fun _ hnone => ?_, fun key' value' hother => ?_⟩
        · rw [hassigned] at hnone
          cases hnone
        · rw [hassigned] at hother
          cases hother
          exact h

/-- Bash gives up the function exactly when that is how the reading ends. -/
theorem givenUp_iff (configPath : List Byte) :
    GivenUp shell file ↔ ∃ exit, exit.rejects = false ∧
      StopsAt (loadChomped shell configPath) 1 (fileLines file) exit := by
  constructor
  · rintro ⟨front, line, back, key, value, hlines, hfront, hassigned, exit, hexit, hgiven⟩
    refine ⟨exit, hgiven, front, line, back, hlines, fun earlier hearlier => ?_, ?_⟩
    · exact (loadable_iff shell configPath).mp (hfront earlier hearlier)
    · rw [loadChomped_of_assignment shell configPath hassigned, hexit]
  · rintro ⟨exit, hgiven, front, line, back, hlines, hfront, hexit⟩
    cases hassigned : assignmentOf line with
    | none =>
        cases hignored : DeployConfig.isIgnored line with
        | true =>
            rw [loadChomped_of_isIgnored shell configPath hignored] at hexit
            cases hexit
        | false =>
            obtain ⟨message, hdied⟩ :=
              loadChomped_of_none shell configPath (1 + front.length) hignored hassigned
            rw [hdied] at hexit
            cases hexit
            cases hgiven
    | some entry =>
        rw [loadChomped_of_assignment shell configPath hassigned] at hexit
        exact ⟨front, line, back, entry.1, entry.2, hlines, fun earlier hearlier =>
          (loadable_iff shell configPath).mpr (hfront earlier hearlier), hassigned, exit, hexit,
          hgiven⟩

/-- What the shell exports for an assignment. -/
def madeOf (entry : List Byte × ℕ × List Byte) : Option (List Byte × List Byte) :=
  match exportVariable shell entry.2.1 entry.1 entry.2.2 with
  | .ok made => made
  | .error _ => none

/-- The shell exports every variable of a file that it gets past. -/
theorem deployLoadConfig_eq_ok (configPath : List Byte)
    (h : ∀ line ∈ (fileLines file).zipIdx 1, Loadable shell line.1 line.2) :
    DeployConfig.deployLoadConfig shell configPath file =
      .ok (assignAll [] ((assignmentsOf file).filterMap (madeOf shell))) := by
  have hlines : ∀ line ∈ (fileLines file).zipIdx 1, loadChomped shell configPath line.2 line.1 =
      .ok ((assignmentOf line.1).bind fun entry => madeOf shell (entry.1, line.2, entry.2)) := by
    intro line hline
    obtain ⟨made, hmade⟩ := (loadable_iff shell configPath).mp (h line hline)
    cases hassigned : assignmentOf line.1 with
    | none =>
        cases hignored : DeployConfig.isIgnored line.1 with
        | true => exact loadChomped_of_isIgnored shell configPath hignored
        | false => exact absurd hassigned ((h line hline).1 hignored)
    | some entry =>
        rw [loadChomped_of_assignment shell configPath hassigned] at hmade ⊢
        rw [Option.bind_some, madeOf, hmade]
  rw [deployLoadConfig_eq, readLines_eq_ok 1 [] _ hlines, assignmentsOf, List.filterMap_filterMap]
  refine congrArg (fun entries => Except.ok (assignAll [] entries)) ?_
  refine List.filterMap_congr fun line _ => ?_
  dsimp only
  cases assignmentOf line.1 <;> rfl

/-! ## Agreement -/

/-- What the shell exports, if it takes every assignment. -/
theorem filterMap_madeOf (h : ∀ key lineNumber value,
    (key, lineNumber, value) ∈ assignmentsOf file →
      ∃ made, exportVariable shell lineNumber key value = .ok (some made)) :
    (assignmentsOf file).filterMap (madeOf shell) =
      (assignmentsOf file).map (renameEntry id fun key assigned =>
        ((madeOf shell (key, assigned)).map Prod.snd).getD []) := by
  rw [← List.filterMap_eq_map]
  refine List.filterMap_congr fun ⟨key, lineNumber, value⟩ hentry => ?_
  obtain ⟨⟨key', value'⟩, hmade⟩ := h key lineNumber value hentry
  obtain rfl := key_of_exportVariable shell hmade
  simp [madeOf, hmade, renameEntry]

/-- Results are only equal when the shell has taken every assignment. -/
theorem taken_of_exported_eq
    (hloadable : ∀ line ∈ (fileLines file).zipIdx 1, Loadable shell line.1 line.2)
    (h : assignAll [] ((assignmentsOf file).filterMap (madeOf shell)) = returned file)
    {key value : List Byte} {lineNumber : ℕ}
    (hentry : (key, lineNumber, value) ∈ assignmentsOf file) :
    ∃ made, exportVariable shell lineNumber key value = .ok (some made) := by
  obtain ⟨line, hline, hassigned⟩ := (mem_assignmentsOf file).mp hentry
  obtain ⟨made, hmade⟩ := (hloadable _ hline).2 key value hassigned
  cases made with
  | some made => exact ⟨made, hmade⟩
  | none =>
      -- the key would be missing from what the shell exports
      have hkey : key ∈ (returned file).map Prod.fst := by
        rw [returned, List.map_map]
        exact mem_keys_assignAll.mpr (List.mem_map_of_mem hentry)
      rw [← h, mem_keys_assignAll] at hkey
      obtain ⟨⟨key', value'⟩, hmem, rfl⟩ := List.mem_map.mp hkey
      obtain ⟨⟨key', number, assigned⟩, -, hother⟩ := List.mem_filterMap.mp hmem
      unfold madeOf at hother
      split at hother
      · next made hexported =>
          subst hother
          obtain rfl := key_of_exportVariable shell hexported
          exact absurd hexported (fixed_of_exportVariable shell hmade _ _ _)
      · cases hother

/-- What the shell exports is what the other parser returns. -/
theorem exported_eq_iff
    (hloadable : ∀ line ∈ (fileLines file).zipIdx 1, Loadable shell line.1 line.2) :
    assignAll [] ((assignmentsOf file).filterMap (madeOf shell)) = returned file ↔
      (∀ key lineNumber value, (key, lineNumber, value) ∈ assignmentsOf file →
        ∃ made, exportVariable shell lineNumber key value = .ok (some made)) ∧
      ∀ key lineNumber value, LastAssigned (assignmentsOf file) key (lineNumber, value) →
        exportVariable shell lineNumber key value =
          .ok (some (key, encodeUtf8 (decodeUtf8 value))) := by
  have hheld (htaken : ∀ key lineNumber value, (key, lineNumber, value) ∈ assignmentsOf file →
      ∃ made, exportVariable shell lineNumber key value = .ok (some made)) :
      assignAll [] ((assignmentsOf file).filterMap (madeOf shell)) = returned file ↔
        ∀ key lineNumber value, LastAssigned (assignmentsOf file) key (lineNumber, value) →
          exportVariable shell lineNumber key value =
            .ok (some (key, encodeUtf8 (decodeUtf8 value))) := by
    rw [filterMap_madeOf shell file htaken, assignAll_map fun _ _ _ _ => id, returned,
      List.map_inj_left]
    constructor
    · intro hsame key lineNumber value hlast
      have hvalue := hsame (key, lineNumber, value) (mem_assignAll_iff.mpr hlast)
      obtain ⟨before, after, hentries, -⟩ := hlast
      obtain ⟨⟨key', value'⟩, hmade⟩ := htaken key lineNumber value (by rw [hentries]; simp)
      obtain rfl := key_of_exportVariable shell hmade
      simp only [renameEntry, madeOf, hmade, Option.map_some, Option.getD_some, id_eq,
        Prod.mk.injEq, true_and] at hvalue
      rw [hmade, hvalue]
    · rintro hlast ⟨key, lineNumber, value⟩ hentry
      have hmade := hlast key lineNumber value (mem_assignAll_iff.mp hentry)
      simp [renameEntry, madeOf, hmade]
  constructor
  · intro hsame
    have htaken := fun key lineNumber value
        (hentry : (key, lineNumber, value) ∈ assignmentsOf file) =>
      taken_of_exported_eq shell file hloadable hsame hentry
    exact ⟨htaken, (hheld htaken).mp hsame⟩
  · exact fun h => (hheld h.1).mpr h.2

theorem Portable.loadable {shell : Shell} {file : ConfigFile} (h : Portable shell file) :
    ∀ line ∈ (fileLines file).zipIdx 1, Loadable shell line.1 line.2 := by
  intro line hline
  have hmem := List.fst_mem_of_mem_zipIdx hline
  refine ⟨fun hread hnone => ?_, fun key value hassigned => ?_⟩
  · refine h.wellFormed line.1 hmem ⟨Bool.eq_false_iff.mpr fun hignored => ?_, hnone⟩
    rw [h.ignored line.1 hmem hignored] at hread
    cases hread
  · obtain ⟨made, hmade⟩ := h.taken key line.2 value
      ((mem_assignmentsOf file).mpr ⟨line.1, hline, hassigned⟩)
    exact ⟨some made, hmade⟩

/-- Files that both parsers read. -/
theorem agree_iff_portable (hwell : ∀ line ∈ fileLines file, ¬ Malformed line)
    (hloadable : ∀ line ∈ (fileLines file).zipIdx 1, Loadable shell line.1 line.2) :
    assignAll [] ((assignmentsOf file).filterMap (madeOf shell)) = returned file ↔
      Portable shell file := by
  rw [exported_eq_iff shell file hloadable]
  refine ⟨fun h => ⟨hwell, fun line hline hignored => ?_, h.1, h.2⟩, fun h => ⟨h.taken, h.held⟩⟩
  by_contra hread
  obtain ⟨index, hindex⟩ := List.mem_iff_getElem?.mp hline
  have hnumbered : (line, 1 + index) ∈ (fileLines file).zipIdx 1 :=
    List.mk_add_mem_zipIdx_iff_getElem?.mpr hindex
  exact (hloadable _ hnumbered).1 (Bool.eq_false_iff.mpr hread) (assignmentOf_eq_none hignored)

/-- A comment behind two blanks, as a configuration file may well have. -/
def indentedComment : ConfigFile :=
  ⟨DeployConfig.ascii "  # staging" ++ newline :: DeployConfig.ascii "A=1", by decide +kernel⟩

/-- No further name is read-only, and computed variables keep what they are assigned. -/
def plainShell : Shell where
  readonly _ := false
  compute _ _ value := .held value

end WholeFiles

end Orgistry.Deployments
