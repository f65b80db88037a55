import Mathlib.Data.List.Basic
import Mathlib.Data.Nat.Notation

/-!
# Words of a text

A text is cut into the longest runs of its word characters, and words are joined by single blanks.

* `runs` : the longest runs of word characters.
* `unwords` : words joined by a blank.
* `runs_unwords` : cutting undoes joining.
-/

namespace PreCommunity

namespace Words

variable {isWord : Char → Bool}

/-- The run that has been read so far, if there is one. -/
def flush (current : List Char) : List (List Char) := if current = [] then [] else [current]

/-- The runs of a text, when `current` has been read of the first one. -/
def runsFrom (isWord : Char → Bool) : List Char → List Char → List (List Char)
  | current, [] => flush current
  | current, c :: text =>
    if isWord c then runsFrom isWord (current ++ [c]) text
    else flush current ++ runsFrom isWord [] text

/-- The longest runs of word characters. -/
def runs (isWord : Char → Bool) (text : List Char) : List (List Char) := runsFrom isWord [] text

/-- Words joined by a blank. -/
def unwords : List (List Char) → List Char
  | [] => []
  | [word] => word
  | word :: words => word ++ ' ' :: unwords words

/-- A word: word characters, at least one. -/
def Word (isWord : Char → Bool) (word : List Char) : Prop :=
  word ≠ [] ∧ ∀ c ∈ word, isWord c = true

theorem unwords_cons {word : List Char} {words : List (List Char)} (h : words ≠ []) :
    unwords (word :: words) = word ++ ' ' :: unwords words := by
  cases words with
  | nil => exact absurd rfl h
  | cons next words => rfl

theorem flush_of_ne {current : List Char} (h : current ≠ []) : flush current = [current] := if_neg h

theorem word_of_mem_flush {current word : List Char} (hcurrent : ∀ c ∈ current, isWord c = true)
    (h : word ∈ flush current) : Word isWord word := by
  unfold flush at h
  split_ifs at h with hempty
  · cases h
  · obtain rfl := List.mem_singleton.1 h
    exact ⟨hempty, hcurrent⟩

/-- **What is cut out** are words. -/
theorem word_of_mem_runsFrom {text current word : List Char}
    (hcurrent : ∀ c ∈ current, isWord c = true) (h : word ∈ runsFrom isWord current text) :
    Word isWord word := by
  induction text generalizing current with
  | nil => exact word_of_mem_flush hcurrent h
  | cons c text ih =>
    rw [runsFrom] at h
    split_ifs at h with hc
    · refine ih (fun d hd => ?_) h
      rcases List.mem_append.1 hd with hd | hd
      · exact hcurrent d hd
      · exact List.mem_singleton.1 hd ▸ hc
    · rcases List.mem_append.1 h with h | h
      · exact word_of_mem_flush hcurrent h
      · exact ih (fun d hd => absurd hd List.not_mem_nil) h

theorem word_of_mem_runs {text word : List Char} (h : word ∈ runs isWord text) :
    Word isWord word :=
  word_of_mem_runsFrom (fun _ hc => absurd hc List.not_mem_nil) h

/-- The characters of a run are characters of the text. -/
theorem mem_of_mem_runsFrom {text current word : List Char} {c : Char}
    (h : word ∈ runsFrom isWord current text) (hc : c ∈ word) : c ∈ current ∨ c ∈ text := by
  induction text generalizing current with
  | nil =>
    rw [runsFrom, flush] at h
    split_ifs at h
    · cases h
    · exact .inl (List.mem_singleton.1 h ▸ hc)
  | cons d text ih =>
    rw [runsFrom] at h
    split_ifs at h
    · obtain hcurrent | htext := ih h
      · rcases List.mem_append.1 hcurrent with hcurrent | hd
        · exact .inl hcurrent
        · exact .inr (List.mem_singleton.1 hd ▸ List.mem_cons_self)
      · exact .inr (List.mem_cons_of_mem d htext)
    · rcases List.mem_append.1 h with h | h
      · rw [flush] at h
        split_ifs at h
        · cases h
        · exact .inl (List.mem_singleton.1 h ▸ hc)
      · obtain hnil | htext := ih h
        · cases hnil
        · exact .inr (List.mem_cons_of_mem d htext)

theorem runsFrom_word {current word rest : List Char} (h : ∀ c ∈ word, isWord c = true) :
    runsFrom isWord current (word ++ rest) = runsFrom isWord (current ++ word) rest := by
  induction word generalizing current with
  | nil => simp
  | cons c word ih =>
    rw [List.cons_append, runsFrom, if_pos (h c List.mem_cons_self),
      ih fun d hd => h d (List.mem_cons_of_mem c hd), List.append_assoc, List.singleton_append]

/-- **Cutting** undoes joining. -/
theorem runs_unwords (hblank : isWord ' ' = false) {words : List (List Char)}
    (h : ∀ word ∈ words, Word isWord word) : runs isWord (unwords words) = words := by
  induction words with
  | nil => rfl
  | cons word words ih =>
    obtain ⟨hne, hword⟩ := h word List.mem_cons_self
    have hrest := ih fun w hw => h w (List.mem_cons_of_mem word hw)
    by_cases hwords : words = []
    · subst hwords
      have hrun : runsFrom isWord [] (word ++ []) = runsFrom isWord ([] ++ word) [] :=
        runsFrom_word hword
      rw [List.append_nil, List.nil_append] at hrun
      rw [unwords, runs, hrun, runsFrom, flush_of_ne hne]
    · rw [unwords_cons hwords, runs, runsFrom_word hword, runsFrom, hblank]
      simp only [Bool.false_eq_true, if_false, List.nil_append]
      rw [flush_of_ne hne, List.singleton_append]
      exact congrArg _ hrest

/-- A character of joined words is a blank or a character of a word. -/
theorem mem_unwords {words : List (List Char)} {c : Char} (h : c ∈ unwords words) :
    c = ' ' ∨ ∃ word ∈ words, c ∈ word := by
  induction words with
  | nil => cases h
  | cons word words ih =>
    by_cases hwords : words = []
    · subst hwords
      exact .inr ⟨word, List.mem_cons_self, h⟩
    · rw [unwords_cons hwords] at h
      rcases List.mem_append.1 h with h | h
      · exact .inr ⟨word, List.mem_cons_self, h⟩
      · rcases List.mem_cons.1 h with h | h
        · exact .inl h
        · obtain hblank | ⟨w, hw, hc⟩ := ih h
          · exact .inl hblank
          · exact .inr ⟨w, List.mem_cons_of_mem word hw, hc⟩

end Words

end PreCommunity
