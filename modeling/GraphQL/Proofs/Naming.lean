import GraphQL.Name
import Mathlib

/-!
# Names in camel case

The camel case of an identifier keeps its leading underscores and has no other underscore right
before an ASCII letter or digit. There is nothing left to join in it and its first letter is in
lowercase, so that it is its own camel case. The latter rests on the table of letter case: what is
the lowercase of a character has no other lowercase.
-/

namespace GraphQL

namespace Text

/-! ## Lowercase of lowercase -/

/-- The code point of the lowercase of the first code point on a run. -/
def CaseRun.lowest (run : CaseRun) : Nat :=
  (run.first + run.shift).toNat

/-- The code point of the lowercase of the last code point on a run. -/
def CaseRun.highest (run : CaseRun) : Nat :=
  (run.last + run.shift).toNat

/-- No code point on a run has its lowercase on another run: the lowercases lie before or behind
that one, or else between its code points, which are two apart. -/
def CaseRun.misses (run other : CaseRun) : Bool :=
  Nat.blt run.highest other.first || Nat.blt other.last run.lowest ||
    (Nat.beq run.step 2 || Nat.beq run.first run.last) && Nat.beq other.step 2 &&
      Nat.beq ((run.lowest + other.first) % 2) 1

/-- The lowercases on a run are characters, none of them the dotted capital I. They are no ASCII
characters, unless there is a single one, which is an ASCII letter in lowercase. -/
def CaseRun.isPlain (run : CaseRun) : Bool :=
  0 ≤ run.first + run.shift &&
    (128 ≤ run.lowest || run.first = run.last && 97 ≤ run.lowest && run.lowest ≤ 122) &&
    (run.highest < 0xD800 || 0xDFFF < run.lowest && run.highest < 0x110000) &&
    (run.highest < 0x130 || 0x130 < run.lowest)

-- The comparisons of `misses` are those that are quickly decided, as there is one for each pair.
theorem lowercaseRuns_miss :
    (lowercaseRuns.all fun run => run.isPlain && lowercaseRuns.all run.misses) = true := by
  decide +kernel

namespace CaseRun

variable {run other : CaseRun} {code : Nat}

theorem bounds_of_contains (inside : run.contains code = true) :
    run.first ≤ code ∧ code ≤ run.last ∧ (code - run.first) % run.step = 0 := by
  simpa [contains, and_assoc] using inside

/-- The lowercase of a code point on a run lies on no run that this one misses. -/
theorem not_contains_of_misses (plain : run.isPlain = true) (apart : run.misses other = true)
    (inside : run.contains code = true) : other.contains (code + run.shift).toNat = false := by
  obtain ⟨low, high, steps⟩ := bounds_of_contains inside
  refine eq_false_of_ne_true fun meets => ?_
  obtain ⟨otherLow, otherHigh, otherSteps⟩ := bounds_of_contains meets
  have start : 0 ≤ run.first + run.shift := by
    simp only [isPlain, Bool.and_eq_true, decide_eq_true_eq] at plain
    exact plain.1.1.1
  simp only [misses, Bool.or_eq_true, Bool.and_eq_true, Nat.beq_eq, Nat.blt_eq, lowest, highest]
    at apart
  rcases apart with (below | above) | ⟨⟨stepped, otherStepped⟩, between⟩
  · omega
  · omega
  · rw [otherStepped] at otherSteps
    rcases stepped with two | single
    · rw [two] at steps
      omega
    · omega

/-- What the code point of a lowercase may be. -/
theorem toNat_lowercase (plain : run.isPlain = true) (inside : run.contains code = true) :
    (Char.ofNat (code + run.shift).toNat).toNat = (code + run.shift).toNat ∧
      Char.ofNat (code + run.shift).toNat ≠ '\u0130' ∧
      (128 ≤ (Char.ofNat (code + run.shift).toNat).toNat ∨
        97 ≤ (Char.ofNat (code + run.shift).toNat).toNat ∧
          (Char.ofNat (code + run.shift).toNat).toNat ≤ 122) := by
  obtain ⟨low, high, _⟩ := bounds_of_contains inside
  have fromLowest : run.lowest ≤ (code + run.shift).toNat := by
    unfold lowest
    omega
  have toHighest : (code + run.shift).toNat ≤ run.highest := by
    unfold highest
    omega
  have single : run.first = run.last → (code + run.shift).toNat = run.lowest := fun same => by
    rw [lowest, Nat.le_antisymm (same ▸ high) low]
  simp only [isPlain, Bool.or_eq_true, Bool.and_eq_true, decide_eq_true_eq] at plain
  generalize (code + run.shift).toNat = lowered at fromLowest toHighest single ⊢
  have same : (Char.ofNat lowered).toNat = lowered := by
    rw [Char.toNat_ofNat, if_pos]
    unfold Nat.isValidChar
    omega
  refine ⟨same, fun dotted => ?_, same.symm ▸ ?_⟩
  · have dottedCode : lowered = 0x130 := by
      rw [← same, dotted]
      rfl
    omega
  · omega

end CaseRun

/-- What holds of the ASCII characters one by one holds of all of them. -/
theorem forall_ascii {P : Char → Prop} (each : ∀ code < 128, P (Char.ofNat code)) {c : Char}
    (ascii : c.toNat < 128) : P c :=
  Char.ofNat_toNat c ▸ each c.toNat ascii

theorem lowercase_of_ascii {c : Char} (ascii : c.toNat < 128) : lowercase c = [c.toLower] :=
  if_pos (UInt32.lt_iff_toNat_lt.mpr (show c.val.toNat < (128 : UInt32).toNat from ascii))

theorem lowercase_of_not_ascii {c : Char} (foreign : 128 ≤ c.toNat) (undotted : c ≠ '\u0130') :
    lowercase c = match lowercaseRuns.find? fun run => run.contains c.toNat with
      | some run => [Char.ofNat (c.toNat + run.shift).toNat]
      | none => [c] := by
  have notAscii : ¬ c.val < 128 := fun less =>
    absurd (UInt32.lt_iff_toNat_lt.mp less) (Nat.not_lt.mpr foreign)
  exact (if_neg notAscii).trans (if_neg undotted)

/-- The lowercase of a code point on a run of the table is its own lowercase. -/
theorem lowercase_lowercase_of_run {run : CaseRun} (among : run ∈ lowercaseRuns) {code : Nat}
    (inside : run.contains code = true) :
    lowercase (Char.ofNat (code + run.shift).toNat) = [Char.ofNat (code + run.shift).toNat] ∧
      Char.ofNat (code + run.shift).toNat ≠ '_' := by
  have checked := List.all_eq_true.mp lowercaseRuns_miss run among
  rw [Bool.and_eq_true] at checked
  obtain ⟨plain, apart⟩ := checked
  obtain ⟨same, undotted, foreign | letter⟩ := CaseRun.toNat_lowercase plain inside
  · rw [lowercase_of_not_ascii foreign undotted, List.find?_eq_none.mpr fun other inTable => ?_]
    · exact ⟨rfl, fun underscore => absurd foreign (underscore ▸ by decide)⟩
    · have missed := List.all_eq_true.mp apart other inTable
      rw [same, CaseRun.not_contains_of_misses plain missed inside]
      exact Bool.false_ne_true
  · have ascii := Nat.lt_of_le_of_lt letter.2 (by decide : 122 < 128)
    rw [lowercase_of_ascii ascii]
    revert letter
    refine forall_ascii (P := fun c => 97 ≤ c.toNat ∧ c.toNat ≤ 122 →
      [c.toLower] = [c] ∧ c ≠ '_') ?_ ascii
    decide +kernel

/-- The lowercase of a character begins with a character that is its own lowercase. Nothing but the
underscore is lowered to an underscore. -/
theorem exists_lowercase (c : Char) :
    ∃ first others, lowercase c = first :: others ∧ lowercase first = [first] ∧
      (c ≠ '_' → '_' ∉ lowercase c) := by
  by_cases ascii : c.toNat < 128
  · have small : c.toLower.toNat < 128 ∧ c.toLower.toLower = c.toLower ∧
        (c.toLower = '_' → c = '_') :=
      forall_ascii (P := fun c => c.toLower.toNat < 128 ∧ c.toLower.toLower = c.toLower ∧
        (c.toLower = '_' → c = '_')) (by decide +kernel) ascii
    rw [lowercase_of_ascii ascii]
    refine ⟨_, [], rfl, ?_, fun other among => ?_⟩
    · rw [lowercase_of_ascii small.1, small.2.1]
    · exact other (small.2.2 (List.mem_singleton.mp among).symm)
  · by_cases dotted : c = '\u0130'
    · rw [dotted]
      exact ⟨'i', ['\u0307'], rfl, rfl, fun _ => by decide⟩
    · have lowered := lowercase_of_not_ascii (Nat.not_lt.mp ascii) dotted
      split at lowered
      · next run found =>
        have inside : run.contains c.toNat = true := by simpa using List.find?_some found
        obtain ⟨again, other⟩ := lowercase_lowercase_of_run (List.mem_of_find?_eq_some found) inside
        rw [lowered]
        exact ⟨_, [], rfl, again, fun _ among => other (List.mem_singleton.mp among).symm⟩
      · rw [lowered]
        exact ⟨c, [], rfl, lowered, fun other among => other (List.mem_singleton.mp among).symm⟩

end Text

/-! ## Words joined -/

/-- No underscore is right before an ASCII letter or digit. -/
def Joined (text : List Char) : Prop :=
  text.IsChain fun c next => c = '_' → isWordStart next = false

namespace Joined

theorem replicate (held : Nat) : Joined (List.replicate held '_') :=
  List.isChain_replicate_of_rel held fun _ => rfl

theorem tail {c : Char} {text : List Char} (joined : Joined (c :: text)) : Joined text :=
  List.IsChain.tail joined

/-- Characters other than the underscore may stand before any text. -/
theorem append {word text : List Char} (free : '_' ∉ word) (joined : Joined text) :
    Joined (word ++ text) := by
  induction word with
  | nil => exact joined
  | cons c others ih =>
    rw [List.mem_cons, not_or] at free
    exact List.isChain_cons.mpr ⟨fun _ _ same => absurd same.symm free.1, ih free.2⟩

/-- Underscores are joined to what no word starts with. -/
theorem replicate_append {text : List Char} (held : Nat)
    (stop : ∀ c ∈ text.head?, 0 < held → isWordStart c = false) (joined : Joined text) :
    Joined (List.replicate held '_' ++ text) := by
  refine List.isChain_append.mpr ⟨replicate held, joined, fun last atEnd c atStart _ => ?_⟩
  refine stop c atStart (Nat.pos_of_ne_zero fun none => ?_)
  rw [none] at atEnd
  cases atEnd

end Joined

theorem toUpper_ne_underscore {c : Char} (other : c ≠ '_') : c.toUpper ≠ '_' := by
  by_cases ascii : c.toNat < 128
  · revert other
    exact Text.forall_ascii (P := fun c => c ≠ '_' → c.toUpper ≠ '_') (by decide +kernel) ascii
  · have foreign : ¬ (c.val ≥ 'a'.val ∧ c.val ≤ 'z'.val) := fun letter =>
      ascii (Nat.lt_of_le_of_lt (UInt32.le_iff_toNat_le.mp letter.2) (by decide))
    rwa [Char.toUpper, dif_neg foreign]

theorem joinWords_cons_of_ne {c : Char} (rest : List Char) (other : c ≠ '_') :
    joinWords 0 (c :: rest) = c :: joinWords 0 rest := by
  simp [joinWords, other]

theorem joined_joinWords (held : Nat) (text : List Char) : Joined (joinWords held text) := by
  fun_induction joinWords held text with
  | case1 held => exact .replicate held
  | case2 held rest ih => exact ih
  | case3 held c rest other start ih =>
    have raised : '_' ∉ [c.toUpper] := by
      rw [List.mem_singleton]
      exact (toUpper_ne_underscore other).symm
    exact .append raised ih
  | case4 held c rest other apart ih =>
    refine .replicate_append held (fun next atStart ahead => ?_) ?_
    · obtain rfl : c = next := Option.some.inj atStart
      exact eq_false_of_ne_true fun start => apart ⟨ahead, start⟩
    · have kept : '_' ∉ [c] := by
        rw [List.mem_singleton]
        exact Ne.symm other
      exact .append kept ih

/-- In a text with its words joined there is nothing left to join. -/
theorem joinWords_of_joined (held : Nat) (text : List Char)
    (joined : Joined (List.replicate held '_' ++ text)) :
    joinWords held text = List.replicate held '_' ++ text := by
  fun_induction joinWords held text with
  | case1 held => exact (List.append_nil _).symm
  | case2 held rest ih =>
    have shifted :
        List.replicate held '_' ++ '_' :: rest = List.replicate (held + 1) '_' ++ rest := by
      rw [List.replicate_succ', List.append_assoc, List.singleton_append]
    rw [shifted] at joined ⊢
    exact ih joined
  | case3 held c rest other start _ =>
    have meets := (List.isChain_append.mp joined).2.2 '_' ?_ c rfl rfl
    · exact absurd start.2 (by simp [meets])
    · simp [List.getLast?_replicate, Nat.ne_of_gt start.1]
  | case4 held c rest other apart ih =>
    have behind : Joined rest := Joined.tail (List.isChain_append.mp joined).2.1
    rw [ih behind]
    rfl

/-- A run of underscores before a text that does not begin with one. -/
theorem span_underscores {lead rest : List Char} (underscores : ∀ c ∈ lead, c = '_')
    (stop : rest.head? ≠ some '_') :
    (lead ++ rest).takeWhile (· == '_') = lead ∧ (lead ++ rest).dropWhile (· == '_') = rest := by
  have leading : ∀ c ∈ lead, (c == '_') = true := fun c among =>
    beq_iff_eq.mpr (underscores c among)
  rw [List.takeWhile_append_of_pos leading, List.dropWhile_append_of_pos leading]
  cases rest with
  | nil => exact ⟨List.append_nil _, rfl⟩
  | cons c others =>
    have other : ¬ c = '_' := fun same => stop (congrArg some same)
    simp [other]

/-- Behind its leading underscores, an identifier in camel case is a text with its words joined and
its first letter in lowercase. -/
theorem camelCaseChars_eq (identifier : List Char) :
    ∃ rest, camelCaseChars identifier = identifier.takeWhile (· == '_') ++ rest ∧
      rest.head? ≠ some '_' ∧ Joined rest ∧ lowerFirst rest = rest := by
  refine ⟨_, rfl, ?_⟩
  cases behind : identifier.dropWhile (· == '_') with
  | nil => exact ⟨nofun, .replicate 0, rfl⟩
  | cons c others =>
    have other : c ≠ '_' := by
      have stop := List.head?_dropWhile_not (· == '_') identifier
      simpa [behind] using stop
    obtain ⟨first, more, lowered, again, free⟩ := Text.exists_lowercase c
    have noUnderscore := free other
    rw [joinWords_cons_of_ne others other, lowerFirst, lowered]
    rw [lowered] at noUnderscore
    refine ⟨fun leading => noUnderscore ?_, .append noUnderscore (joined_joinWords 0 others), ?_⟩
    · rw [← Option.some.inj leading]
      exact List.mem_cons_self
    · rw [List.cons_append, lowerFirst, again]
      rfl

section CamelCase

variable (identifier : List Char)

theorem span_camelCaseChars :
    ∃ rest, (camelCaseChars identifier).takeWhile (· == '_') = identifier.takeWhile (· == '_') ∧
      (camelCaseChars identifier).dropWhile (· == '_') = rest ∧ Joined rest ∧
      lowerFirst rest = rest := by
  obtain ⟨rest, same, stop, joined, lowered⟩ := camelCaseChars_eq identifier
  have underscores : ∀ c ∈ identifier.takeWhile (· == '_'), c = '_' := fun c among =>
    beq_iff_eq.mp (List.mem_takeWhile_imp (p := (· == '_')) among)
  obtain ⟨lead, behind⟩ := span_underscores underscores stop
  rw [same]
  exact ⟨rest, lead, behind, joined, lowered⟩

/-- A name in camel case is its own camel case. -/
theorem camelCaseChars_camelCaseChars :
    camelCaseChars (camelCaseChars identifier) = camelCaseChars identifier := by
  obtain ⟨rest, -, behind, joined, lowered⟩ := span_camelCaseChars identifier
  calc camelCaseChars (camelCaseChars identifier)
    _ = (camelCaseChars identifier).takeWhile (· == '_') ++ lowerFirst (joinWords 0 rest) := by
      rw [← behind]
      rfl
    _ = (camelCaseChars identifier).takeWhile (· == '_') ++
          (camelCaseChars identifier).dropWhile (· == '_') := by
      rw [joinWords_of_joined 0 rest joined, List.replicate_zero, List.nil_append, lowered, behind]
    _ = camelCaseChars identifier := List.takeWhile_append_dropWhile

end CamelCase

end GraphQL
