/-
  The string operations of the configuration.

  `trim` is what pydantic does to texts: it removes the characters of the Unicode
  property White_Space, which `strip` removes with four others (`strip_trim`).
-/
import PlcGateway.Domain.Models

namespace PlcGateway

/-! ## Case -/

/-- `str.upper` and `str.lower`.  A leading underscore stays. -/
structure CaseMapping where
  upper : String → String
  lower : String → String
  lower_underscore : ∀ s, s.toList.head? = some '_' → (lower s).toList.head? = some '_'

/-- The case mapping of ASCII letters. -/
def asciiCase : CaseMapping where
  upper s := String.ofList (s.toList.map Char.toUpper)
  lower s := String.ofList (s.toList.map Char.toLower)
  lower_underscore s hs := by
    rw [String.toList_ofList, List.head?_map, hs]
    rfl

/-! ## Trimming -/

/-- The characters with the property White_Space. -/
def isWhiteSpace (c : Char) : Bool :=
  let n := c.toNat
  (9 ≤ n && n ≤ 13) || n == 32 || n == 0x85 || n == 0xA0 || n == 0x1680 ||
    (0x2000 ≤ n && n ≤ 0x200A) || n == 0x2028 || n == 0x2029 || n == 0x202F || n == 0x205F ||
    n == 0x3000

def trimChars (l : List Char) : List Char := (l.dropWhile isWhiteSpace).rdropWhile isWhiteSpace

/-- `str_strip_whitespace` -/
def trim (s : String) : String := String.ofList (trimChars s.toList)

theorem isSpace_of_isWhiteSpace {c : Char} (h : isWhiteSpace c) : isSpace c := by
  simp only [isWhiteSpace, isSpace, Bool.or_eq_true, Bool.and_eq_true, decide_eq_true_eq,
    beq_iff_eq] at h ⊢
  omega

/-- Spaces around a text do not matter for what `strip` leaves. -/
theorem stripChars_append {l a b : List Char} (ha : ∀ c ∈ a, isSpace c) (hb : ∀ c ∈ b, isSpace c) :
    stripChars (a ++ l ++ b) = stripChars l := by
  have hrdrop (m : List Char) : (m ++ b).rdropWhile isSpace = m.rdropWhile isSpace := by
    rw [List.rdropWhile, List.reverse_append, List.dropWhile_append_of_pos, List.rdropWhile]
    intro c hc
    exact hb c (List.mem_reverse.1 hc)
  rw [stripChars, stripChars, List.append_assoc, List.dropWhile_append_of_pos ha, List.dropWhile_append]
  split_ifs with hnil
  · have hempty : l.dropWhile isSpace = [] := List.isEmpty_iff.1 hnil
    rw [hempty, List.dropWhile_eq_nil_iff.2 hb]
  · exact hrdrop _

theorem strip_trim (s : String) : strip (trim s) = strip s := by
  have hsplit : s.toList = s.toList.takeWhile isWhiteSpace ++ trimChars s.toList ++
      (s.toList.dropWhile isWhiteSpace).rtakeWhile isWhiteSpace := by
    rw [List.append_assoc, trimChars, List.rdropWhile_append_rtakeWhile,
      List.takeWhile_append_dropWhile]
  have hstrip : stripChars s.toList = stripChars (trimChars s.toList) := by
    refine (congrArg stripChars hsplit).trans (stripChars_append (fun c hc => ?_) fun c hc => ?_)
    · exact isSpace_of_isWhiteSpace (List.mem_takeWhile_imp hc)
    · exact isSpace_of_isWhiteSpace (List.mem_rtakeWhile_imp hc)
  rw [strip, strip, hstrip, trim, String.toList_ofList]

/-! ## Splitting at double underscores -/

/-- `split("__")` -/
def splitDunder : List Char → List (List Char)
  | [] => [[]]
  | '_' :: '_' :: rest => [] :: splitDunder rest
  | c :: rest => match splitDunder rest with
    | [] => [[c]]
    | part :: parts => (c :: part) :: parts

theorem splitDunder_ne_nil (s : List Char) : splitDunder s ≠ [] := by
  fun_cases splitDunder s with
  | case1 => exact List.cons_ne_nil _ _
  | case2 => exact List.cons_ne_nil _ _
  | case3 => exact List.cons_ne_nil _ _
  | case4 => exact List.cons_ne_nil _ _

/-- A text that begins with a character of a part. -/
theorem splitDunder_cons (rest : List Char) {c : Char} (h : ¬ (c = '_' ∧ rest.head? = some '_')) :
    ∃ part parts, splitDunder rest = part :: parts ∧ splitDunder (c :: rest) = (c :: part) :: parts := by
  obtain ⟨part, parts, hrest⟩ := List.exists_cons_of_ne_nil (splitDunder_ne_nil rest)
  refine ⟨part, parts, hrest, ?_⟩
  rw [splitDunder, hrest]
  rintro rest' rfl rfl
  exact h ⟨rfl, rfl⟩

/-- Joined, the parts are the text. -/
theorem intercalate_splitDunder (s : List Char) : ['_', '_'].intercalate (splitDunder s) = s := by
  fun_induction splitDunder s with
  | case1 => rfl
  | case2 rest ih =>
    rw [List.intercalate_cons_of_ne_nil (splitDunder_ne_nil rest), ih]
    rfl
  | case3 c rest _ hrest => exact absurd hrest (splitDunder_ne_nil rest)
  | case4 c rest _ part parts hrest ih =>
    rw [hrest] at ih
    cases parts with
    | nil =>
      rw [List.intercalate_singleton] at ih ⊢
      rw [ih]
    | cons part' parts =>
      rw [List.intercalate_cons_cons] at ih ⊢
      rw [← ih]
      rfl

theorem eq_of_splitDunder_singleton {s x : List Char} (h : splitDunder s = [x]) : s = x := by
  rw [← intercalate_splitDunder s, h, List.intercalate_singleton]

theorem eq_of_splitDunder_pair {s x y : List Char} (h : splitDunder s = [x, y]) :
    s = x ++ '_' :: '_' :: y := by
  rw [← intercalate_splitDunder s, h, List.intercalate_cons_cons, List.intercalate_singleton,
    List.append_assoc]
  rfl

/-- A double underscore splits. -/
theorem splitDunder_ne_singleton (x y z : List Char) : splitDunder (x ++ '_' :: '_' :: y) ≠ [z] := by
  induction x generalizing z with
  | nil =>
    rw [List.nil_append, splitDunder]
    intro h
    rw [List.cons.injEq] at h
    exact splitDunder_ne_nil y h.2
  | cons c x ih =>
    by_cases hc : c = '_' ∧ (x ++ '_' :: '_' :: y).head? = some '_'
    · obtain ⟨rfl, hhead⟩ := hc
      obtain ⟨rest, hrest⟩ : ∃ rest, x ++ '_' :: '_' :: y = '_' :: rest := by
        rw [List.head?_eq_some_iff] at hhead
        exact hhead
      rw [List.cons_append, hrest, splitDunder]
      intro h
      rw [List.cons.injEq] at h
      exact splitDunder_ne_nil rest h.2
    · obtain ⟨part, parts, hrest, hsplit⟩ := splitDunder_cons _ hc
      rw [List.cons_append, hsplit]
      intro h
      rw [List.cons.injEq] at h
      rw [h.2] at hrest
      exact ih part hrest

/-- A text that has two parts has them around its double underscore, unless the second
    part begins with an underscore. -/
theorem splitDunder_pair {x y p q : List Char} (h : splitDunder (x ++ '_' :: '_' :: y) = [p, q]) :
    (x = p ∧ y = q) ∨ q.head? = some '_' := by
  induction x generalizing p with
  | nil =>
    rw [List.nil_append, splitDunder, List.cons.injEq] at h
    exact .inl ⟨h.1, eq_of_splitDunder_singleton h.2⟩
  | cons c x ih =>
    by_cases hc : c = '_' ∧ (x ++ '_' :: '_' :: y).head? = some '_'
    · obtain ⟨rfl, hhead⟩ := hc
      cases x with
      | nil =>
        rw [List.singleton_append, splitDunder, List.cons.injEq] at h
        rw [← eq_of_splitDunder_singleton h.2]
        exact .inr rfl
      | cons d x =>
        obtain rfl : d = '_' := Option.some.inj hhead
        rw [List.cons_append, List.cons_append, splitDunder, List.cons.injEq] at h
        exact absurd h.2 (splitDunder_ne_singleton x y q)
    · obtain ⟨part, parts, hrest, hsplit⟩ := splitDunder_cons _ hc
      rw [List.cons_append, hsplit, List.cons.injEq] at h
      rw [h.2] at hrest
      rcases ih hrest with ⟨rfl, rfl⟩ | hhead
      · exact .inl ⟨h.1, rfl⟩
      · exact .inr hhead

/-- A first part without underscores. -/
theorem splitDunder_append {x : List Char} (hx : '_' ∉ x) (y : List Char) :
    splitDunder (x ++ '_' :: '_' :: y) = x :: splitDunder y := by
  induction x with
  | nil => rw [List.nil_append, splitDunder]
  | cons c x ih =>
    rw [List.mem_cons, not_or] at hx
    obtain ⟨part, parts, hrest, hsplit⟩ :=
      splitDunder_cons (x ++ '_' :: '_' :: y) fun h => hx.1 h.1.symm
    rw [ih hx.2, List.cons.injEq] at hrest
    rw [List.cons_append, hsplit, ← hrest.1, ← hrest.2]

end PlcGateway
