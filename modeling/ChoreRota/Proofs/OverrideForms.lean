import Mathlib
import ChoreRota.Settings.Overrides
import ChoreRota.Proofs.DecimalText

/-!
# What an override looks like

What comes of a key is said by its words, the longest runs of ASCII letters and digits in it: in
lower case and with one underscore between any two, they are its name. While the key is taken up,
all its closed words stand in the name with an underscore each, and behind them the letters of an
open one (`KeyName.Gathers`).
-/

namespace ChoreRota

namespace Text

variable {isOfKind : Char → Bool} {text ends : List Char}

theorem dropWhile_eq_self (hfirst : ∀ c ∈ text.head?, isOfKind c = false) :
    text.dropWhile isOfKind = text := by
  cases text with
  | nil => rfl
  | cons c rest => rw [List.dropWhile_cons_of_neg (Bool.eq_false_iff.1 (hfirst c rfl))]

theorem stripped_append (hfirst : ∀ c ∈ text.head?, isOfKind c = false)
    (hlast : ∀ c ∈ text.getLast?, isOfKind c = false) (hends : ∀ c ∈ ends, isOfKind c = true) :
    stripped isOfKind (text ++ ends) = text := by
  unfold stripped
  by_cases htext : text = []
  · simp [htext, List.dropWhile_eq_nil_iff.2 hends]
  · have hfront : (text ++ ends).dropWhile isOfKind = text ++ ends :=
      dropWhile_eq_self (by rwa [List.head?_append_of_ne_nil _ htext])
    have hback : text.reverse.dropWhile isOfKind = text.reverse :=
      dropWhile_eq_self (by rwa [List.head?_reverse])
    have hdropped : ∀ c ∈ ends.reverse, isOfKind c = true :=
      fun c hc => hends c (List.mem_reverse.1 hc)
    rw [hfront, List.reverse_append, List.dropWhile_append_of_pos hdropped, hback,
      List.reverse_reverse]

end Text

/-! ### Words -/

namespace KeyName

/-- The words of a key: its maximal runs of ASCII letters and digits, in their order. -/
def words (key : List Char) : List (List Char) :=
  (key.splitOnP (!Char.isAlphanum ·)).filter (!·.isEmpty)

/-- Words in lower case, with one underscore between any two. -/
def joined (words : List (List Char)) : List Char :=
  ['_'].intercalate (words.map (·.map Char.toLower))

def closed (words : List (List Char)) : List Char :=
  words.flatMap fun word => word.map Char.toLower ++ ['_']

structure IsWord (word : List Char) : Prop where
  ne_nil : word ≠ []
  letters : ∀ c ∈ word, c.isAlphanum = true

section Words

variable {word key rest : List Char} {c : Char} {list front : List (List Char)}

theorem words_append_separator (hseparator : c.isAlphanum = false) (key rest : List Char) :
    words (key ++ c :: rest) = words key ++ words rest := by
  unfold words
  rw [List.splitOnP_append_cons key rest (by simpa using hseparator), List.filter_append]

theorem words_cons_separator (hseparator : c.isAlphanum = false) (rest : List Char) :
    words (c :: rest) = words rest :=
  words_append_separator hseparator [] rest

/-- A letter goes in front of the first word behind it, or is a word by itself. -/
theorem exists_words_cons_letter (hletter : c.isAlphanum = true) (rest : List Char) :
    ∃ letters others, words (c :: rest) = (c :: letters) :: others ∧
      (words rest = letters :: others ∨ letters = [] ∧ words rest = others) := by
  unfold words
  rw [List.splitOnP_cons_eq_if_modifyHead, if_neg (by simpa using hletter)]
  cases hpieces : List.splitOnP (!Char.isAlphanum ·) rest with
  | nil => exact absurd hpieces (List.splitOnP_ne_nil _ rest)
  | cons first others =>
    refine ⟨first, others.filter (!·.isEmpty), rfl, ?_⟩
    cases first with
    | nil => exact .inr ⟨rfl, rfl⟩
    | cons => exact .inl rfl

theorem words_of_isWord (hword : IsWord word) : words word = [word] := by
  rw [words, List.splitOnP_eq_singleton fun c hc => by simpa using hword.letters c hc]
  simpa using hword.ne_nil

theorem isWord_of_mem_words (hword : word ∈ words key) : IsWord word := by
  induction key generalizing word with
  | nil => cases hword
  | cons c rest ih =>
    cases hletter : c.isAlphanum with
    | false =>
      rw [words_cons_separator hletter] at hword
      exact ih hword
    | true =>
      obtain ⟨letters, others, hwords, hrest⟩ := exists_words_cons_letter hletter rest
      rw [hwords, List.mem_cons] at hword
      rcases hword with rfl | hother
      · refine ⟨List.cons_ne_nil c letters, List.forall_mem_cons.2 ⟨hletter, ?_⟩⟩
        rcases hrest with hfirst | ⟨rfl, -⟩
        · exact (ih (by rw [hfirst]; exact List.mem_cons_self)).letters
        · exact fun _ hc => absurd hc List.not_mem_nil
      · rcases hrest with hfirst | ⟨-, hall⟩
        · exact ih (by rw [hfirst]; exact List.mem_cons_of_mem letters hother)
        · exact ih (by rw [hall]; exact hother)

theorem words_eq_nil_iff : words key = [] ↔ ∀ c ∈ key, c.isAlphanum = false := by
  induction key with
  | nil => exact iff_of_true rfl fun _ hc => absurd hc List.not_mem_nil
  | cons c rest ih =>
    rw [List.forall_mem_cons]
    cases hletter : c.isAlphanum with
    | false => rw [words_cons_separator hletter, ih, and_iff_right rfl]
    | true =>
      obtain ⟨letters, others, hwords, -⟩ := exists_words_cons_letter hletter rest
      rw [hwords]
      exact iff_of_false (List.cons_ne_nil _ _) fun hnone => Bool.false_ne_true hnone.1.symm

/-! ### Names -/

theorem isAlphanum_toLower (hletter : c.isAlphanum = true) : c.toLower.isAlphanum = true := by
  by_cases hupper : c.isUpper = true
  · have halpha : c.toLower.isAlpha = true := by
      rw [Char.isAlpha_toLower_eq_isAlpha]
      exact Bool.or_eq_true_iff.2 (.inl hupper)
    exact Bool.or_eq_true_iff.2 (.inl halpha)
  · rwa [Char.toLower_eq_of_not_isUpper hupper]

theorem IsWord.map_toLower (hword : IsWord word) : IsWord (word.map Char.toLower) where
  ne_nil := by simpa using hword.ne_nil
  letters := List.forall_mem_map.2 fun c hc => isAlphanum_toLower (hword.letters c hc)

theorem IsWord.ne_underscore (hword : IsWord word) : ∀ c ∈ word, (c == '_') = false := by
  intro c hc
  have hletter := hword.letters c hc
  rw [beq_eq_false_iff_ne]
  rintro rfl
  cases hletter

theorem joined_cons (first : List Char) (hlist : list ≠ []) :
    joined (first :: list) = first.map Char.toLower ++ '_' :: joined list := by
  cases list with
  | nil => exact absurd rfl hlist
  | cons second list => simp [joined, List.intercalate_cons_cons]

theorem joined_concat (front : List (List Char)) (last : List Char) :
    joined (front ++ [last]) = closed front ++ last.map Char.toLower := by
  induction front with
  | nil => simp [joined, closed]
  | cons first front ih =>
    rw [List.cons_append, joined_cons first (by simp), ih]
    simp [closed]

theorem closed_eq (hlist : list ≠ []) : closed list = joined list ++ ['_'] := by
  obtain ⟨front, last, rfl⟩ := (List.eq_nil_or_concat' list).resolve_left hlist
  rw [joined_concat]
  simp [closed]

theorem exists_joined_cons (first : List Char) (list : List (List Char)) :
    ∃ rest, joined (first :: list) = first.map Char.toLower ++ rest := by
  cases list with
  | nil => exact ⟨[], by simp [joined]⟩
  | cons second list => exact ⟨_, joined_cons first (List.cons_ne_nil second list)⟩

theorem joined_eq_nil_iff (hwords : ∀ word ∈ list, IsWord word) :
    joined list = [] ↔ list = [] := by
  cases list with
  | nil => exact iff_of_true rfl rfl
  | cons first list =>
    obtain ⟨rest, hjoined⟩ := exists_joined_cons first list
    have hfirst := (List.forall_mem_cons.1 hwords).1.map_toLower
    rw [hjoined]
    exact iff_of_false (List.append_ne_nil_of_left_ne_nil hfirst.ne_nil rest)
      (List.cons_ne_nil first list)

/-- A name has no underscore at its ends, so that a name with one behind it is stripped of that. -/
theorem stripped_joined_append (hwords : ∀ word ∈ list, IsWord word) {ends : List Char}
    (hends : ∀ c ∈ ends, (c == '_') = true) :
    Text.stripped (· == '_') (joined list ++ ends) = joined list := by
  refine Text.stripped_append ?_ ?_ hends
  · cases list with
    | nil => exact fun _ hc => by cases hc
    | cons first list =>
      obtain ⟨rest, hjoined⟩ := exists_joined_cons first list
      have hfirst := (List.forall_mem_cons.1 hwords).1.map_toLower
      rw [hjoined, List.head?_append_of_ne_nil _ hfirst.ne_nil]
      exact fun c hc => hfirst.ne_underscore c (List.mem_of_head? hc)
  · rcases List.eq_nil_or_concat' list with rfl | ⟨front, last, rfl⟩
    · exact fun _ hc => by cases hc
    · have hlast := (hwords last (by simp)).map_toLower
      rw [joined_concat, List.getLast?_append_of_ne_nil _ hlast.ne_nil]
      exact fun c hc => hlast.ne_underscore c (List.mem_of_getLast? hc)

theorem words_joined (hwords : ∀ word ∈ list, IsWord word) :
    words (joined list) = list.map (·.map Char.toLower) := by
  induction list with
  | nil => rfl
  | cons first list ih =>
    rw [List.forall_mem_cons] at hwords
    have hfirst := words_of_isWord hwords.1.map_toLower
    by_cases hlist : list = []
    · subst hlist
      simpa [joined] using hfirst
    · rw [joined_cons first hlist, words_append_separator (by decide), hfirst, ih hwords.2]
      rfl

theorem joined_map_toLower (list : List (List Char)) :
    joined (list.map (·.map Char.toLower)) = joined list := by
  simp [joined, Function.comp_def, Char.toLower_toLower_eq_toLower]

end Words

/-! ### Taking up a key -/

section TakeUp

variable {name : KeyName} {past word : List Char} {c : Char}

/-- What has been taken up of a key: a past to whose words nothing can be added, and behind it the
letters of a word that may go on. Each word of the past stands in the name with an underscore. -/
structure Gathers (name : KeyName) (past word : List Char) : Prop where
  parts : ∀ rest, words (past ++ rest) = words past ++ words rest
  letters : ∀ c ∈ word, c.isAlphanum = true
  written : name.reversed.reverse = closed (words past) ++ word.map Char.toLower
  afterUnderscore_iff : name.afterUnderscore = true ↔ word = [] ∧ words past ≠ []

theorem gathers_start : start.Gathers [] [] where
  parts _ := rfl
  letters _ hc := absurd hc List.not_mem_nil
  written := rfl
  afterUnderscore_iff := by decide

theorem Gathers.letter (hname : name.Gathers past word) (hletter : c.isAlphanum = true) :
    (name.takeUp c).Gathers past (word ++ [c]) := by
  rw [takeUp, if_pos hletter]
  refine ⟨hname.parts, ?_, ?_, ?_⟩
  · exact List.forall_mem_append.2 ⟨hname.letters, List.forall_mem_singleton.2 hletter⟩
  · rw [List.reverse_cons, hname.written, List.map_append, List.append_assoc]
    rfl
  · simp

/-- The first separator behind a word closes it; any other one leaves the name as it is. -/
theorem Gathers.separator (hname : name.Gathers past word) (hseparator : c.isAlphanum = false) :
    (name.takeUp c).Gathers (past ++ word ++ [c]) [] := by
  have hwords : words (past ++ word ++ [c]) = words past ++ words word := by
    rw [words_append_separator hseparator, hname.parts]
    exact List.append_nil _
  have hparts : ∀ rest, words (past ++ word ++ [c] ++ rest) =
      words (past ++ word ++ [c]) ++ words rest := by
    intro rest
    rw [List.append_assoc _ [c] rest, hwords, ← hname.parts word]
    exact words_append_separator hseparator _ rest
  have hclosed : name.reversed = [] ↔ closed (words past) = [] ∧ word = [] := by
    rw [← List.reverse_eq_nil_iff, hname.written, List.append_eq_nil_iff, List.map_eq_nil_iff]
  rw [takeUp, if_neg (Bool.eq_false_iff.1 hseparator)]
  by_cases hword : word = []
  · -- Either there is no word yet, or the underscore behind the last one is there already.
    have hkept : (!name.afterUnderscore && !name.reversed.isEmpty) = false := by
      by_cases hpast : words past = []
      · have hempty := hclosed.2 ⟨by rw [hpast]; rfl, hword⟩
        simp [hempty]
      · simp [hname.afterUnderscore_iff.2 ⟨hword, hpast⟩]
    have hsame : words (past ++ word ++ [c]) = words past := by
      rw [hwords, hword]
      exact List.append_nil _
    rw [if_neg (Bool.eq_false_iff.1 hkept)]
    refine ⟨hparts, fun _ hc => absurd hc List.not_mem_nil, ?_, ?_⟩
    · rw [hname.written, hsame, hword]
    · rw [hname.afterUnderscore_iff, hsame, hword]
  · have hadds : (!name.afterUnderscore && !name.reversed.isEmpty) = true := by
      have hopen : name.afterUnderscore = false :=
        Bool.eq_false_iff.2 fun hafter => hword (hname.afterUnderscore_iff.1 hafter).1
      have hsome : name.reversed ≠ [] := fun hempty => hword (hclosed.1 hempty).2
      simp [hopen, hsome]
    have hgrown : words (past ++ word ++ [c]) = words past ++ [word] := by
      rw [hwords, words_of_isWord ⟨hword, hname.letters⟩]
    rw [if_pos hadds]
    refine ⟨hparts, fun _ hc => absurd hc List.not_mem_nil, ?_, ?_⟩
    · rw [hgrown, List.reverse_cons, hname.written]
      simp [closed]
    · rw [hgrown]
      simp

theorem exists_gathers (key : List Char) :
    ∃ past word, key = past ++ word ∧ (key.foldl takeUp start).Gathers past word := by
  induction key using List.reverseRecOn with
  | nil => exact ⟨[], [], rfl, gathers_start⟩
  | append_singleton key c ih =>
    obtain ⟨past, word, hkey, hname⟩ := ih
    rw [List.foldl_append]
    cases hletter : c.isAlphanum with
    | true => exact ⟨past, word ++ [c], by rw [hkey, List.append_assoc], hname.letter hletter⟩
    | false =>
      exact ⟨past ++ word ++ [c], [], by rw [hkey, List.append_nil], hname.separator hletter⟩

theorem Gathers.exists_written (hname : name.Gathers past word) :
    ∃ ends, (∀ c ∈ ends, (c == '_') = true) ∧
      name.reversed.reverse = joined (words (past ++ word)) ++ ends := by
  rw [hname.written, hname.parts]
  by_cases hword : word = []
  · have hnone : words past ++ words word = words past := by
      rw [hword]
      exact List.append_nil _
    rw [hnone, hword]
    by_cases hpast : words past = []
    · exact ⟨[], by simp, by rw [hpast]; rfl⟩
    · exact ⟨['_'], by simp, by rw [closed_eq hpast]; exact List.append_nil _⟩
  · refine ⟨[], by simp, ?_⟩
    rw [words_of_isWord ⟨hword, hname.letters⟩, joined_concat, List.append_nil]

theorem stripped_takeUp (key : List Char) :
    Text.stripped (· == '_') (key.foldl takeUp start).reversed.reverse = joined (words key) := by
  obtain ⟨past, word, hkey, hname⟩ := exists_gathers key
  obtain ⟨ends, hends, hwritten⟩ := hname.exists_written
  rw [hwritten, ← hkey]
  exact stripped_joined_append (fun _ => isWord_of_mem_words) hends

end TakeUp

end KeyName

namespace Override

open KeyName (words joined)

theorem canonicalKey?_eq (key : List Char) :
    canonicalKey? key =
      if words key = [] then none else some (String.ofList (joined (words key))) := by
  have hempty : joined (words key) = [] ↔ words key = [] :=
    KeyName.joined_eq_nil_iff fun _ => KeyName.isWord_of_mem_words
  unfold canonicalKey?
  rw [KeyName.stripped_takeUp]
  split
  · rename_i hnone
    rw [if_pos (hempty.1 hnone)]
  · rename_i hsome
    rw [if_neg (mt hempty.2 hsome)]

theorem canonicalKey?_eq_none_iff {key : List Char} :
    canonicalKey? key = none ↔ ∀ c ∈ key, c.isAlphanum = false := by
  rw [canonicalKey?_eq, ← KeyName.words_eq_nil_iff]
  simp

theorem canonicalKey?_toList {key : List Char} {name : String}
    (hname : canonicalKey? key = some name) : canonicalKey? name.toList = some name := by
  rw [canonicalKey?_eq] at hname
  split at hname
  · cases hname
  · rename_i hsome
    obtain rfl := Option.some.inj hname
    have hwords : words (joined (words key)) = (words key).map (·.map Char.toLower) :=
      KeyName.words_joined fun _ => KeyName.isWord_of_mem_words
    have hagain : words (joined (words key)) ≠ [] := by
      rw [hwords]
      exact mt List.map_eq_nil_iff.1 hsome
    rw [String.toList_ofList, canonicalKey?_eq, if_neg hagain, hwords, KeyName.joined_map_toLower]

/-! ### Values -/

/-- What a name and the text of a value ask for. The number that is spelled is the one that is set,
so that it has at most 64 bits. -/
inductive Sets : String → List Char → Override → Prop
  | historyWindow {name : String} {value : List Char} {count : UInt64}
    (hname : name = "adaptive_history_window" ∨ name = "adaptive_window")
    (hvalue : Text.SpellsUnsigned value count.toNat) (hpositive : 1 ≤ count.toNat) :
    Sets name value (.historyWindow count)
  | randomSeed {name : String} {value : List Char} {seed : UInt64}
    (hname : name = "random_seed" ∨ name = "seed")
    (hvalue : Text.SpellsUnsigned value seed.toNat) : Sets name value (.randomSeed seed)

section Values

variable {name value text : String} {chars : List Char} {count number : Nat} {override : Override}

theorem toOption_readUnsigned_eq_some_iff :
    (Text.readUnsigned chars).toOption = some number ↔
      Text.SpellsUnsigned chars number ∧ number < UInt64.size := by
  rw [show UInt64.size = 2 ^ 64 from rfl, ← Text.readUnsigned_eq_ok_iff]
  cases Text.readUnsigned chars <;> simp [Except.toOption]

theorem ofKey_eq_ok_iff : ofKey name value = .ok override ↔ Sets name value.toList override := by
  constructor
  · intro hset
    unfold ofKey at hset
    simp only at hset
    split at hset
    · rename_i hname
      split at hset
      · rename_i previous hnumber
        obtain rfl := Except.ok.inj hset
        obtain ⟨hvalue, hsize⟩ := toOption_readUnsigned_eq_some_iff.1 hnumber
        have hcount := UInt64.toNat_ofNat_of_lt' hsize
        exact .historyWindow hname (by rwa [hcount]) (by rw [hcount]; exact Nat.le_add_left 1 previous)
      · cases hset
    · split at hset
      · rename_i hname
        split at hset
        · rename_i number hnumber
          obtain rfl := Except.ok.inj hset
          obtain ⟨hvalue, hsize⟩ := toOption_readUnsigned_eq_some_iff.1 hnumber
          exact .randomSeed hname (by rwa [UInt64.toNat_ofNat_of_lt' hsize])
        · cases hset
      · cases hset
  · intro hset
    cases hset with
    | @historyWindow count hname hvalue hpositive =>
      have hnumber := toOption_readUnsigned_eq_some_iff.2 ⟨hvalue, count.toNat_lt⟩
      obtain ⟨previous, hprevious⟩ := Nat.exists_eq_add_of_le' hpositive
      simp only [ofKey, if_pos hname, hnumber, hprevious]
      rw [← hprevious, UInt64.ofNat_toNat]
    | @randomSeed seed hname hvalue =>
      have hnumber := toOption_readUnsigned_eq_some_iff.2 ⟨hvalue, seed.toNat_lt⟩
      have hother : ¬(name = "adaptive_history_window" ∨ name = "adaptive_window") := by
        rcases hname with rfl | rfl <;> decide
      simp only [ofKey, if_neg hother, if_pos hname, hnumber, UInt64.ofNat_toNat]

theorem Sets.ne_empty (hset : Sets name chars override) : name ≠ "" := by
  cases hset with
  | historyWindow hname => rcases hname with rfl | rfl <;> decide
  | randomSeed hname => rcases hname with rfl | rfl <;> decide

/-- A key without an equals sign, such a sign, and a value that goes with the name of the key. -/
def Spells (chars : List Char) (override : Override) : Prop :=
  ∃ key value, chars = key ++ '=' :: value ∧ '=' ∉ key ∧
    Sets (String.ofList (joined (words key))) (Text.trimmed value) override

theorem splitFirst?_equals_eq_some_iff {key rest : List Char} :
    Text.splitFirst? (· == '=') chars = some (key, rest) ↔
      chars = key ++ '=' :: rest ∧ '=' ∉ key := by
  rw [Text.splitFirst?_eq_some_iff]
  constructor
  · rintro ⟨separator, hseparator, hkey, hchars⟩
    obtain rfl := beq_iff_eq.1 hseparator
    exact ⟨hchars, fun hmem => by cases hkey '=' hmem⟩
  · rintro ⟨hchars, hkey⟩
    refine ⟨'=', beq_self_eq_true '=', fun c hc => ?_, hchars⟩
    rw [beq_eq_false_iff_ne]
    rintro rfl
    exact hkey hc

theorem read_eq_ok_iff :
    read text = .ok override ↔ Spells (Text.trimmed text.toList) override := by
  unfold read Spells
  constructor
  · intro hread
    split at hread
    · cases hread
    · rename_i key value hsplit
      obtain ⟨hchars, hkey⟩ := splitFirst?_equals_eq_some_iff.1 hsplit
      rw [canonicalKey?_eq] at hread
      split at hread
      · cases hread
      · rename_i name hname
        split at hname
        · cases hname
        · obtain rfl := Option.some.inj hname
          have hset := ofKey_eq_ok_iff.1 hread
          rw [String.toList_ofList] at hset
          exact ⟨key, value, hchars, hkey, hset⟩
  · rintro ⟨key, value, hchars, hkey, hset⟩
    have hwords : words key ≠ [] := fun hnone => hset.ne_empty (by rw [hnone]; rfl)
    have hread : ofKey (String.ofList (joined (words key))) (String.ofList (Text.trimmed value)) =
        .ok override := ofKey_eq_ok_iff.2 (by rwa [String.toList_ofList])
    simp only [splitFirst?_equals_eq_some_iff.2 ⟨hchars, hkey⟩, canonicalKey?_eq, if_neg hwords,
      hread]

end Values

end Override

/-- **Overrides as they are written.** A text is an override exactly if, without the blanks at its
ends, it has an equals sign, the words in front of the first one name a setting, in lower case and
with single underscores between them, and what stands behind it, without blanks again, is a number
of 64 bits, which is not 0 for a window; the override has that number. A key has a name unless it
has no letter and no digit, and a name is the name of itself. -/
theorem Override.read_eq_ok_iff_spells :
    (∀ text override, read text = .ok override ↔ Spells (Text.trimmed text.toList) override) ∧
      (∀ key, canonicalKey? key = none ↔ ∀ c ∈ key, c.isAlphanum = false) ∧
      ∀ key, (canonicalKey? key).bind (canonicalKey? ·.toList) = canonicalKey? key := by
  refine ⟨fun _ _ => read_eq_ok_iff, fun _ => canonicalKey?_eq_none_iff, fun key => ?_⟩
  cases hname : canonicalKey? key with
  | none => rfl
  | some name => exact canonicalKey?_toList hname

/-- Neither the umlaut nor the minus signs are part of a word. -/
example : Override.read " --Random Öseed= +007 " = .ok (.randomSeed 7) := by decide +kernel

end ChoreRota
