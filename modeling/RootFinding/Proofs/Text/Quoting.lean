import RootFinding.Text.Record
import Mathlib.Data.List.Basic

/-!
# Reading quoted text back

Every character is written in a way that shows where it ends, and a quote inside a text is never
written as the quote at its end. So the quoted form determines the text, and the record of a bag of
texts determines its elements, whatever characters these contain.
-/

namespace RootFinding.Text

section Digits

/-- Different hexadecimal digits are different characters. -/
theorem digitChar_inj {m n : Nat} (small : m < 16) (smallToo : n < 16)
    (same : m.digitChar = n.digitChar) : m = n := by
  have table : ∀ m < 16, ∀ n < 16, m.digitChar = n.digitChar → m = n := by decide
  exact table m small n smallToo same

/-- The last hexadecimal digit of a number is that of its remainder. -/
theorem toDigits_eq (n : Nat) : Nat.toDigits 16 n =
    (if n < 16 then [] else Nat.toDigits 16 (n / 16)) ++ [(n % 16).digitChar] := by
  rw [Nat.toDigits_eq_if (by decide)]
  split
  · next small => rw [Nat.mod_eq_of_lt small, List.nil_append]
  · rfl

/-- Different numbers have different hexadecimal forms. -/
theorem toDigits_inj {m n : Nat} (same : Nat.toDigits 16 m = Nat.toDigits 16 n) : m = n := by
  induction m using Nat.strongRecOn generalizing n with
  | ind m inductionHypothesis =>
      rw [toDigits_eq m, toDigits_eq n] at same
      obtain ⟨sameFront, sameLast⟩ := List.append_inj' same rfl
      have remainder : m % 16 = n % 16 := digitChar_inj (Nat.mod_lt m (by decide))
        (Nat.mod_lt n (by decide)) (List.singleton_inj.mp sameLast)
      by_cases small : m < 16 <;> by_cases smallToo : n < 16
      · omega
      · rw [if_pos small, if_neg smallToo] at sameFront
        exact absurd sameFront.symm Nat.toDigits_ne_nil
      · rw [if_neg small, if_pos smallToo] at sameFront
        exact absurd sameFront Nat.toDigits_ne_nil
      · rw [if_neg small, if_neg smallToo] at sameFront
        have quotient := inductionHypothesis (m / 16) (by omega) sameFront
        omega

/-- The brace at the end is not a digit. -/
theorem brace_notMem_toDigits (n : Nat) : '\x7d' ∉ Nat.toDigits 16 n := by
  induction n using Nat.strongRecOn with
  | ind n inductionHypothesis =>
      have notLast : '\x7d' ∉ [(n % 16).digitChar] := by
        rw [List.mem_singleton]
        exact (Nat.digitChar_ne '\x7d' (by decide)).symm
      rw [toDigits_eq, List.mem_append, not_or]
      refine ⟨?_, notLast⟩
      split
      · exact List.not_mem_nil
      · exact inductionHypothesis (n / 16) (by omega)

end Digits

section Escapes

/-- The characters with an escape of their own, and what follows the backslash there. -/
def shortEscapes : List (Char × Char) :=
  [('"', '"'), ('\\', '\\'), ('\n', 'n'), ('\r', 'r'), ('\t', 't'), ('\x00', '0')]

/-- No two short escapes are the same, and none begins like the escape by number. -/
theorem shortEscapes_inj {c d mark : Char} (escaped : (c, mark) ∈ shortEscapes)
    (escapedToo : (d, mark) ∈ shortEscapes) : c = d ∧ mark ≠ 'u' := by
  have table : ∀ first ∈ shortEscapes, ∀ second ∈ shortEscapes, first.2 = second.2 →
      first.1 = second.1 ∧ first.2 ≠ 'u' := by decide
  exact table _ escaped _ escapedToo rfl

/-- A character stands for itself, or it has a short escape or an escape by its number. -/
theorem escape_cases (c : Char) :
    (c ≠ '\\' ∧ c ≠ '"' ∧ escape c = [c]) ∨
      (∃ mark, (c, mark) ∈ shortEscapes ∧ escape c = ['\\', mark]) ∨
        escape c = '\\' :: 'u' :: '\x7b' :: (Nat.toDigits 16 c.toNat ++ ['\x7d']) := by
  by_cases short : ∃ mark, (c, mark) ∈ shortEscapes
  · obtain ⟨mark, escaped⟩ := short
    have table : ∀ entry ∈ shortEscapes, escape entry.1 = ['\\', entry.2] := by decide
    exact Or.inr (Or.inl ⟨mark, escaped, table _ escaped⟩)
  · have apart {d mark : Char} (escaped : (d, mark) ∈ shortEscapes) : c ≠ d :=
      fun same => short ⟨mark, same ▸ escaped⟩
    have notQuote : c ≠ '"' := apart (show ('"', '"') ∈ shortEscapes by decide)
    have notBackslash : c ≠ '\\' := apart (show ('\\', '\\') ∈ shortEscapes by decide)
    have notNewline : c ≠ '\n' := apart (show ('\n', 'n') ∈ shortEscapes by decide)
    have notReturn : c ≠ '\r' := apart (show ('\r', 'r') ∈ shortEscapes by decide)
    have notTab : c ≠ '\t' := apart (show ('\t', 't') ∈ shortEscapes by decide)
    have notNull : c.toNat ≠ 0 := fun zero =>
      apart (show ('\x00', '0') ∈ shortEscapes by decide) (Char.toNat_inj.mp zero)
    unfold escape
    simp only [beq_iff_eq, notQuote, notBackslash, notNewline, notReturn, notTab, notNull, if_false]
    split
    · exact Or.inl ⟨notBackslash, notQuote, rfl⟩
    · exact Or.inr (Or.inr rfl)

/-- What comes before the first end mark and what comes after it are determined. -/
theorem append_end_inj {mark : Char} {front front' rest rest' : List Char} (absent : mark ∉ front)
    (absentToo : mark ∉ front') (same : front ++ mark :: rest = front' ++ mark :: rest') :
    front = front' ∧ rest = rest' := by
  induction front generalizing front' with
  | nil =>
      cases front' with
      | nil => exact ⟨rfl, (List.cons.inj same).2⟩
      | cons c front' =>
          exact absurd (List.mem_cons.mpr (Or.inl (List.cons.inj same).1)) absentToo
  | cons c front inductionHypothesis =>
      cases front' with
      | nil => exact absurd (List.mem_cons.mpr (Or.inl (List.cons.inj same).1.symm)) absent
      | cons d front' =>
          obtain ⟨rfl, sameTail⟩ := List.cons.inj same
          obtain ⟨rfl, sameRest⟩ := inductionHypothesis (List.not_mem_of_not_mem_cons absent)
            (List.not_mem_of_not_mem_cons absentToo) sameTail
          exact ⟨rfl, sameRest⟩

/-- Where an escape ends shows: what begins with one determines the character and the rest. -/
theorem escape_append_inj {c d : Char} {rest rest' : List Char}
    (same : escape c ++ rest = escape d ++ rest') : c = d ∧ rest = rest' := by
  rcases escape_cases c with ⟨notBackslash, _, form⟩ | ⟨mark, escaped, form⟩ | form <;>
    rcases escape_cases d with ⟨notBackslashToo, _, formToo⟩ | ⟨other, escapedToo, formToo⟩ |
      formToo <;>
    simp only [form, formToo, List.cons_append, List.nil_append, List.append_assoc,
      List.cons.injEq, true_and] at same
  case inl.inl => exact same
  case inl.inr.inl => exact absurd same.1 notBackslash
  case inl.inr.inr => exact absurd same.1 notBackslash
  case inr.inl.inl => exact absurd same.1.symm notBackslashToo
  case inr.inr.inl => exact absurd same.1.symm notBackslashToo
  case inr.inl.inr.inl =>
    obtain ⟨rfl, sameRest⟩ := same
    exact ⟨(shortEscapes_inj escaped escapedToo).1, sameRest⟩
  case inr.inl.inr.inr => exact absurd same.1 (shortEscapes_inj escaped escaped).2
  case inr.inr.inr.inl => exact absurd same.1.symm (shortEscapes_inj escapedToo escapedToo).2
  case inr.inr.inr.inr =>
    obtain ⟨sameDigits, sameRest⟩ := append_end_inj (brace_notMem_toDigits _)
      (brace_notMem_toDigits _) same
    exact ⟨Char.toNat_inj.mp (toDigits_inj sameDigits), sameRest⟩

/-- No escape begins with a quote. -/
theorem escape_append_ne_quote (c : Char) (rest rest' : List Char) :
    escape c ++ rest ≠ '"' :: rest' := by
  rcases escape_cases c with ⟨_, notQuote, form⟩ | ⟨mark, _, form⟩ | form
  · rw [form]
    exact fun same => notQuote (List.cons.inj same).1
  · rw [form]
    exact fun same => absurd (List.cons.inj same).1 (by decide)
  · rw [form]
    exact fun same => absurd (List.cons.inj same).1 (by decide)

end Escapes

section Quotes

/-- Where the escapes of a text end shows at the quote. -/
theorem flatMap_escape_inj {text other rest rest' : List Char}
    (same : text.flatMap escape ++ '"' :: rest = other.flatMap escape ++ '"' :: rest') :
    text = other ∧ rest = rest' := by
  induction text generalizing other with
  | nil =>
      cases other with
      | nil => exact ⟨rfl, (List.cons.inj same).2⟩
      | cons d other =>
          rw [List.flatMap_cons, List.append_assoc] at same
          exact absurd same.symm (escape_append_ne_quote d _ _)
  | cons c text inductionHypothesis =>
      rw [List.flatMap_cons, List.append_assoc] at same
      cases other with
      | nil => exact absurd same (escape_append_ne_quote c _ _)
      | cons d other =>
          rw [List.flatMap_cons, List.append_assoc] at same
          obtain ⟨rfl, sameTail⟩ := escape_append_inj same
          obtain ⟨rfl, sameRest⟩ := inductionHypothesis sameTail
          exact ⟨rfl, sameRest⟩

/-- What begins with a quoted text determines the text and the rest. -/
theorem quote_append_inj {text other : String} {rest rest' : List Char}
    (same : (quote text).toList ++ rest = (quote other).toList ++ rest') :
    text = other ∧ rest = rest' := by
  simp only [quote, String.toList_ofList, List.cons_append, List.append_assoc,
    List.nil_append, List.cons.injEq, true_and] at same
  obtain ⟨sameList, sameRest⟩ := flatMap_escape_inj same
  exact ⟨String.toList_inj.mp sameList, sameRest⟩

/-- A text can be read back from its quoted form. -/
theorem quote_injective : Function.Injective quote := by
  intro text other same
  exact (quote_append_inj (congrArg (String.toList · ++ []) same)).1

end Quotes

section Lists

/-- A list with separators is its first element and each further one after a separator. -/
theorem intercalate_cons (separator first : List Char) (rest : List (List Char)) :
    separator.intercalate (first :: rest) = first ++ rest.flatMap (separator ++ ·) := by
  induction rest generalizing first with
  | nil => rw [List.intercalate_singleton, List.flatMap_nil, List.append_nil]
  | cons next rest inductionHypothesis =>
      rw [List.intercalate_cons_cons, inductionHypothesis, List.flatMap_cons]
      simp only [List.append_assoc]

/-- The end of a list of quoted texts, after its first element: a brace, or a separator and the
next element. -/
def listEnd (texts : List String) : List Char :=
  texts.flatMap (fun text => ',' :: ' ' :: (quote text).toList) ++ ['\x7d']

/-- The end of a list determines what is in it. -/
theorem listEnd_injective : Function.Injective listEnd := by
  intro texts
  induction texts with
  | nil =>
      intro others same
      cases others with
      | nil => rfl
      | cons other others => exact absurd (List.cons.inj same).1 (by decide)
  | cons text texts inductionHypothesis =>
      intro others same
      cases others with
      | nil => exact absurd (List.cons.inj same).1 (by decide)
      | cons other others =>
          simp only [listEnd, List.flatMap_cons, List.cons_append, List.append_assoc,
            List.cons.injEq, true_and] at same
          obtain ⟨rfl, sameEnd⟩ := quote_append_inj same
          exact congrArg (text :: ·) (inductionHypothesis sameEnd)

/-- A list of quoted texts, up to the brace at its end. -/
def listed : List String → List Char
  | [] => ['\x7d']
  | text :: texts => (quote text).toList ++ listEnd texts

/-- A quoted text does not begin with a brace. -/
theorem quote_append_ne_brace (text : String) (rest rest' : List Char) :
    (quote text).toList ++ rest ≠ '\x7d' :: rest' := by
  rw [quote, String.toList_ofList]
  exact fun same => absurd (List.cons.inj same).1 (by decide)

/-- A list determines what is in it. -/
theorem listed_injective : Function.Injective listed := by
  intro texts others same
  cases texts with
  | nil =>
      cases others with
      | nil => rfl
      | cons other others => exact absurd same.symm (quote_append_ne_brace other _ _)
  | cons text texts =>
      cases others with
      | nil => exact absurd same (quote_append_ne_brace text _ _)
      | cons other others =>
          obtain ⟨rfl, sameEnd⟩ := quote_append_inj same
          rw [listEnd_injective sameEnd]

/-- The record of a bag of texts lists its elements in quotes. -/
theorem toList_record (bag : Bag String) : bag.record.toList = '\x7b' :: listed bag.toList := by
  rw [Bag.record, Bag.text, String.toList_append, String.toList_append, String.toList_intercalate,
    List.map_map]
  refine congrArg ('\x7b' :: ·) ?_
  cases bag.toList with
  | nil => rfl
  | cons text texts =>
      rw [List.map_cons, intercalate_cons, List.flatMap_map, listed, listEnd, ← List.append_assoc]
      rfl

end Lists

/-- The record of a bag of texts says which elements it has and in which order they are walked,
whatever characters they contain. -/
theorem record_eq_iff {a b : Bag String} : a.record = b.record ↔ a.toList = b.toList := by
  rw [← String.toList_inj, toList_record, toList_record, List.cons.injEq,
    listed_injective.eq_iff]
  exact and_iff_right rfl

end RootFinding.Text
