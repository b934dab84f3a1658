import Montage.Proofs.Text.Characters

/-!
Taking texts apart.

A text is cut wherever a separator stands, and labels in brackets are taken from its front.  What
was put together from parts without the marks that are looked for comes apart into these parts.
-/

namespace Montage

namespace Text

/-- The parts of a text between the places where a separator stands, with so many characters of a
separator still to be passed over. -/
def partsFrom (separator : List Char) : Nat → List Char → List (List Char)
  | _, [] => [[]]
  | skipped + 1, _ :: rest => partsFrom separator skipped rest
  | 0, c :: rest =>
    if separator.isPrefixOf (c :: rest) then [] :: partsFrom separator (separator.length - 1) rest
    else (partsFrom separator 0 rest).modifyHead (c :: ·)

/-- The parts of a text between the places where a separator stands. -/
def partsOf (separator s : List Char) : List (List Char) := partsFrom separator 0 s

section Parts

variable {first : Char} {more part rest : List Char}

theorem partsFrom_skip (separator skipped rest : List Char) :
    partsFrom separator skipped.length (skipped ++ rest) = partsOf separator rest := by
  induction skipped with
  | nil => rfl
  | cons c later ih =>
      rw [List.length_cons, List.cons_append, partsFrom]
      exact ih

theorem partsOf_separator (first : Char) (more rest : List Char) :
    partsOf (first :: more) (first :: more ++ rest) = [] :: partsOf (first :: more) rest := by
  have hstands : (first :: more).isPrefixOf (first :: more ++ rest) = true :=
    List.isPrefixOf_iff_prefix.2 (List.prefix_append _ _)
  rw [List.cons_append] at hstands ⊢
  rw [partsOf, partsFrom, if_pos hstands]
  exact congrArg _ (partsFrom_skip (first :: more) more rest)

/-- Where the first character of the separator does not occur, nothing is cut. -/
theorem partsOf_append (hpart : first ∉ part) :
    partsOf (first :: more) (part ++ rest) =
      (partsOf (first :: more) rest).modifyHead (part ++ ·) := by
  induction part with
  | nil =>
      rw [List.nil_append]
      cases partsOf (first :: more) rest <;> rfl
  | cons c later ih =>
      rw [List.mem_cons, not_or] at hpart
      have hstands : ¬(first :: more).isPrefixOf (c :: (later ++ rest)) = true := by
        rw [List.isPrefixOf_iff_prefix]
        intro hprefix
        exact hpart.1 (List.cons_prefix_cons.1 hprefix).1
      rw [List.cons_append, partsOf, partsFrom, if_neg hstands]
      change (partsOf (first :: more) (later ++ rest)).modifyHead _ = _
      rw [ih hpart.2, List.modifyHead_modifyHead]
      rfl

/-- Parts put together with a separator come apart again. -/
theorem partsOf_intercalate {parts : List (List Char)} (hne : parts ≠ [])
    (hparts : ∀ part ∈ parts, first ∉ part) :
    partsOf (first :: more) ((first :: more).intercalate parts) = parts := by
  have hlast : ∀ {part : List Char}, first ∉ part → partsOf (first :: more) part = [part] := by
    intro part hpart
    have happend : partsOf (first :: more) (part ++ []) =
        (partsOf (first :: more) []).modifyHead (part ++ ·) := partsOf_append hpart
    rw [List.append_nil] at happend
    rw [happend]
    exact congrArg (fun s => [s]) (List.append_nil part)
  induction parts with
  | nil => exact absurd rfl hne
  | cons part later ih =>
      obtain ⟨hpart, hlater⟩ := List.forall_mem_cons.1 hparts
      cases later with
      | nil =>
          rw [List.intercalate_singleton]
          exact hlast hpart
      | cons next others =>
          rw [List.intercalate_cons_cons, List.append_assoc, partsOf_append hpart,
            partsOf_separator, ih (List.cons_ne_nil next others) hlater, List.modifyHead_cons,
            List.append_nil]

end Parts

/-- The labels in brackets at the front of a text, and what follows them; `label` is the label
begun, if any.  A bracket that is left open is no label. -/
def labelsFrom : Option (List Char) → List Char → List (List Char) × List Char
  | none, c :: rest => if c == '[' then labelsFrom (some []) rest else ([], c :: rest)
  | none, [] => ([], [])
  | some label, [] => ([], '[' :: label)
  | some label, c :: rest =>
    if c == ']' then
      let (more, after) := labelsFrom none rest
      (label :: more, after)
    else labelsFrom (some (label ++ [c])) rest

section Labels

variable {label begun rest : List Char}

theorem labelsFrom_label (hlabel : ']' ∉ label) :
    labelsFrom (some begun) (label ++ ']' :: rest) =
      ((begun ++ label) :: (labelsFrom none rest).1, (labelsFrom none rest).2) := by
  induction label generalizing begun with
  | nil => rw [List.nil_append, List.append_nil, labelsFrom, if_pos (by decide)]
  | cons c later ih =>
      rw [List.mem_cons, not_or] at hlabel
      have hc : ¬(c == ']') = true := by
        rw [beq_iff_eq]
        exact Ne.symm hlabel.1
      rw [List.cons_append, labelsFrom, if_neg hc, ih hlabel.2, List.append_assoc]
      rfl

/-- Labels in brackets are read up to a text that begins with something else. -/
theorem labelsFrom_flatMap {labels : List (List Char)} (hlabels : ∀ label ∈ labels, ']' ∉ label)
    (hrest : rest.head? ≠ some '[') :
    labelsFrom none (labels.flatMap (fun label => '[' :: label ++ [']']) ++ rest) =
      (labels, rest) := by
  induction labels with
  | nil =>
      cases rest with
      | nil => rfl
      | cons c later =>
          have hc : ¬(c == '[') = true := by
            rw [beq_iff_eq]
            exact fun heq => hrest (congrArg some heq)
          rw [List.flatMap_nil, List.nil_append, labelsFrom, if_neg hc]
  | cons label more ih =>
      obtain ⟨hlabel, hmore⟩ := List.forall_mem_cons.1 hlabels
      rw [List.flatMap_cons, List.append_assoc, List.cons_append, List.cons_append,
        List.append_assoc, List.singleton_append, labelsFrom, if_pos (by decide),
        labelsFrom_label hlabel, ih hmore, List.nil_append]

end Labels

end Text

end Montage
