import HostRoster.Config.Check

/-!
# Which texts are keys

A key starts with a small letter. What stands behind it is a word, which may be empty, and
then any number of groups, each a hyphen and a word with at least one character. A text is
checked for this by its first character, its characters, its last one and pairs of hyphens;
together these leave exactly the texts of that shape.
-/
namespace HostRoster

/-- A small letter of the alphabet from a to z. -/
def IsSmall (c : Char) : Prop := 'a' ≤ c ∧ c ≤ 'z'

/-- What words are made of: small letters and the digits from 0 to 9. -/
def IsPlain (c : Char) : Prop := IsSmall c ∨ '0' ≤ c ∧ c ≤ '9'

/-- A word and the groups behind it. -/
structure KeyTail where
  word : List Char
  groups : List (List Char)
  plain : ∀ c ∈ word, IsPlain c
  filled : ∀ group ∈ groups, group ≠ []
  plainGroups : ∀ group ∈ groups, ∀ c ∈ group, IsPlain c

/-- The parts of a key. -/
structure KeyParts extends KeyTail where
  letter : Char
  small : IsSmall letter

/-- Every group starts with a hyphen. -/
def KeyTail.text (t : KeyTail) : List Char := t.word ++ t.groups.flatMap ('-' :: ·)

def KeyParts.text (p : KeyParts) : List Char := p.letter :: p.toKeyTail.text

theorem isLower_iff {c : Char} : isLower c = true ↔ IsSmall c := by
  simp [isLower, IsSmall]

theorem IsPlain.ne_hyphen {c : Char} (h : IsPlain c) : c ≠ '-' := by
  rintro rfl
  exact absurd h (by unfold IsPlain IsSmall; decide)

theorem isKeyChar_iff {c : Char} : isKeyChar c = true ↔ IsPlain c ∨ c = '-' := by
  have digit : c.isDigit = true ↔ '0' ≤ c ∧ c ≤ '9' := by
    simp [Char.isDigit, Char.le_def, UInt32.le_iff_toNat_le]
  simp only [isKeyChar, IsPlain, Bool.or_eq_true, isLower_iff, digit, beq_iff_eq]

/-- What is asked of the characters behind the first. -/
def isKeyTail (text : List Char) : Bool :=
  text.all isKeyChar && text.getLast? != some '-' && !hasDoubleHyphen text

theorem hasDoubleHyphen_cons {c : Char} (other : c ≠ '-') (rest : List Char) :
    hasDoubleHyphen (c :: rest) = hasDoubleHyphen rest := by
  rw [hasDoubleHyphen]
  exact fun _ same => absurd same other

theorem hasDoubleHyphen_hyphen (rest : List Char) : hasDoubleHyphen ('-' :: rest) = true ↔
    rest.head? = some '-' ∨ hasDoubleHyphen rest = true := by
  cases rest with
  | nil => simp [hasDoubleHyphen]
  | cons c rest =>
    by_cases hyphen : c = '-'
    · simp [hyphen, hasDoubleHyphen]
    · rw [hasDoubleHyphen]
      · simp [hyphen]
      · exact fun _ _ same => hyphen (List.cons.inj same).1

theorem isKeyTail_cons {c : Char} (other : c ≠ '-') (rest : List Char) :
    isKeyTail (c :: rest) = true ↔ IsPlain c ∧ isKeyTail rest = true := by
  have last : (c :: rest).getLast? = some '-' ↔ rest.getLast? = some '-' := by
    cases rest <;> simp [other]
  simp only [isKeyTail, List.all_cons, hasDoubleHyphen_cons other, Bool.and_eq_true, bne_iff_ne, ne_eq,
    last, isKeyChar_iff, other, or_false, and_assoc]

/-- Behind a hyphen has to stand something else than a hyphen. -/
theorem isKeyTail_hyphen (rest : List Char) : isKeyTail ('-' :: rest) = true ↔
    (∃ c ∈ rest.head?, c ≠ '-') ∧ isKeyTail rest = true := by
  cases rest with
  | nil => simp [isKeyTail]
  | cons c rest =>
    have chars : ('-' :: c :: rest).all isKeyChar = (c :: rest).all isKeyChar := rfl
    have last : ('-' :: c :: rest).getLast? = (c :: rest).getLast? := rfl
    have double : hasDoubleHyphen ('-' :: c :: rest) = false ↔
        c ≠ '-' ∧ hasDoubleHyphen (c :: rest) = false := by
      rw [← Bool.not_eq_true, hasDoubleHyphen_hyphen]
      simp
    simp only [isKeyTail, chars, last, Bool.and_eq_true, Bool.not_eq_true', double, List.head?_cons,
      Option.mem_def, Option.some.injEq, exists_eq_left']
    exact ⟨fun ⟨scanned, other, single⟩ => ⟨other, scanned, single⟩,
      fun ⟨other, scanned, single⟩ => ⟨scanned, other, single⟩⟩

theorem isKeyTail_append {word : List Char} (plain : ∀ c ∈ word, IsPlain c) {rest : List Char}
    (tail : isKeyTail rest = true) : isKeyTail (word ++ rest) = true := by
  induction word with
  | nil => exact tail
  | cons c word ih =>
    obtain ⟨first, plain⟩ := List.forall_mem_cons.1 plain
    exact (isKeyTail_cons first.ne_hyphen _).2 ⟨first, ih plain⟩

namespace KeyTail

/-- By induction on the groups. -/
theorem isKeyTail_text (t : KeyTail) : isKeyTail t.text = true := by
  obtain ⟨word, groups, plain, filled, plainGroups⟩ := t
  refine isKeyTail_append plain ?_
  induction groups with
  | nil => rfl
  | cons group groups ih =>
    obtain ⟨some_, filled⟩ := List.forall_mem_cons.1 filled
    obtain ⟨plain, plainGroups⟩ := List.forall_mem_cons.1 plainGroups
    have more := isKeyTail_append plain (ih filled plainGroups)
    obtain ⟨c, rest, rfl⟩ := List.exists_cons_of_ne_nil some_
    have first : c ≠ '-' := (plain c List.mem_cons_self).ne_hyphen
    exact (isKeyTail_hyphen _).2 ⟨⟨c, rfl, first⟩, more⟩

/-- Nothing behind the first letter. -/
def nil : KeyTail := ⟨[], [], by simp, by simp, by simp⟩

/-- One more character at the start of the word. -/
def cons (c : Char) (first : IsPlain c) (t : KeyTail) : KeyTail :=
  { t with word := c :: t.word, plain := List.forall_mem_cons.2 ⟨first, t.plain⟩ }

/-- The word becomes the first group. -/
def group (t : KeyTail) (some_ : t.word ≠ []) : KeyTail where
  word := []
  groups := t.word :: t.groups
  plain := by simp
  filled := List.forall_mem_cons.2 ⟨some_, t.filled⟩
  plainGroups := List.forall_mem_cons.2 ⟨t.plain, t.plainGroups⟩

/-- Where there is no word, a group comes first, with its hyphen. -/
theorem word_ne_nil {t : KeyTail} {c : Char} (first : t.text.head? = some c) (other : c ≠ '-') :
    t.word ≠ [] := by
  intro none
  rw [text, none] at first
  cases groups : t.groups with
  | nil =>
    rw [groups] at first
    cases first
  | cons group rest =>
    rw [groups] at first
    exact other (Option.some.inj first).symm

/-- By induction on the text, whose next character belongs to the word or begins a group. -/
theorem exists_text {text : List Char} (tail : isKeyTail text = true) :
    ∃ t : KeyTail, t.text = text := by
  induction text with
  | nil => exact ⟨nil, rfl⟩
  | cons c rest ih =>
    by_cases hyphen : c = '-'
    · subst hyphen
      obtain ⟨⟨d, first, other⟩, tail⟩ := (isKeyTail_hyphen rest).1 tail
      obtain ⟨t, rfl⟩ := ih tail
      exact ⟨t.group (word_ne_nil first other), rfl⟩
    · obtain ⟨plain, tail⟩ := (isKeyTail_cons hyphen rest).1 tail
      obtain ⟨t, rfl⟩ := ih tail
      exact ⟨t.cons c plain, rfl⟩

end KeyTail

theorem isHostKey_cons (c : Char) (text : List Char) :
    isHostKey (.ofList (c :: text)) = true ↔ IsSmall c ∧ isKeyTail text = true := by
  have whole : isHostKey (.ofList (c :: text)) = (isLower c && isKeyTail (c :: text)) := by
    simp [isHostKey, isKeyTail, Bool.and_assoc]
  rw [whole, Bool.and_eq_true, isLower_iff]
  refine and_congr_right fun small => ?_
  have plain : IsPlain c := .inl small
  rw [isKeyTail_cons plain.ne_hyphen]
  exact and_iff_right plain

/-- A text passes as a key exactly if it is a small letter, small letters and digits behind it, and
then any number of groups of one hyphen and one or more small letters or digits. -/
theorem isHostKey_iff (key : String) : isHostKey key = true ↔ ∃ p : KeyParts, .ofList p.text = key := by
  constructor
  · intro passes
    obtain ⟨text, rfl⟩ : ∃ text, .ofList text = key := ⟨key.toList, String.ofList_toList⟩
    cases text with
    | nil => exact absurd passes (by decide)
    | cons c text =>
      obtain ⟨small, tail⟩ := (isHostKey_cons c text).1 passes
      obtain ⟨t, rfl⟩ := KeyTail.exists_text tail
      exact ⟨{ t with letter := c, small }, rfl⟩
  · rintro ⟨p, rfl⟩
    exact (isHostKey_cons ..).2 ⟨p.small, p.isKeyTail_text⟩

end HostRoster
