/-
  Splitting and printing of URLs (`urllib.parse`).

  * `urlsplit` ends the authority at the first `/`, `?` or `#`, and raises if its
    brackets are not balanced, or if a further check of the authority raises;
  * `urlunsplit` prints the parts again, but for the `?` of an empty query and the `#`
    of an empty fragment.  `reprint_append` says what that makes of a text with a
    character inside that is neither.
-/
import Mathlib.Data.List.DropRight
import Mathlib.Tactic.Common

namespace Urls

/-! ## Cutting at a character -/

section
variable {α : Type} [DecidableEq α]

/-- What is before the first `c`, and what is after it. -/
def cut (c : α) (s : List α) : List α × List α :=
  (s.takeWhile (· ≠ c), (s.dropWhile (· ≠ c)).drop 1)

theorem cut_append_cons {c : α} {x : List α} (hx : c ∉ x) (y : List α) :
    cut c (x ++ c :: y) = (x, y) := by
  have hall : ∀ a ∈ x, decide (a ≠ c) = true := by
    intro a ha
    exact decide_eq_true fun h => hx (h ▸ ha)
  rw [cut, List.takeWhile_append_of_pos hall, List.dropWhile_append_of_pos hall,
    List.takeWhile_cons_of_neg (by simp), List.dropWhile_cons_of_neg (by simp), List.append_nil,
    List.drop_one, List.tail_cons]

theorem cut_of_notMem {c : α} {s : List α} (hs : c ∉ s) : cut c s = (s, []) := by
  have hall : ∀ a ∈ s, decide (a ≠ c) = true := by
    intro a ha
    exact decide_eq_true fun h => hs (h ▸ ha)
  rw [cut, List.takeWhile_eq_self_iff.2 hall, List.dropWhile_eq_nil_iff.2 hall, List.drop_nil]

/-- A text to be cut, with something before it. -/
theorem cut_append {c : α} {x : List α} (hx : c ∉ x) (s : List α) :
    cut c (x ++ s) = (x ++ (cut c s).1, (cut c s).2) := by
  by_cases hs : c ∈ s
  · obtain ⟨y, z, rfl, hy⟩ := List.eq_append_cons_of_mem hs
    have hxy : c ∉ x ++ y := by
      rw [List.mem_append, not_or]
      exact ⟨hx, hy⟩
    rw [← List.append_assoc, cut_append_cons hxy, cut_append_cons hy]
  · have hxs : c ∉ x ++ s := by
      rw [List.mem_append, not_or]
      exact ⟨hx, hs⟩
    rw [cut_of_notMem hxs, cut_of_notMem hs]

theorem mem_of_mem_cut {c a : α} {s : List α} (ha : a ∈ (cut c s).1 ∨ a ∈ (cut c s).2) : a ∈ s := by
  rcases ha with ha | ha
  · exact List.takeWhile_subset _ ha
  · exact List.dropWhile_subset _ (List.drop_subset _ _ ha)

end

/-! ## Splitting -/

structure SplitResult where
  scheme : List Char
  netloc : List Char
  path : List Char
  query : List Char
  fragment : List Char
  deriving DecidableEq, Repr

def isAsciiAlpha (c : Char) : Bool :=
  let n := c.toNat
  (65 ≤ n && n ≤ 90) || (97 ≤ n && n ≤ 122)

/-- `scheme_chars` -/
def isSchemeChar (c : Char) : Bool :=
  isAsciiAlpha c || (48 ≤ c.toNat && c.toNat ≤ 57) || c == '+' || c == '-' || c == '.'

/-- `_WHATWG_C0_CONTROL_OR_SPACE` -/
def isControlOrSpace (c : Char) : Bool := c.toNat ≤ 32

/-- `_UNSAFE_URL_BYTES_TO_REMOVE` -/
def isUnsafe (c : Char) : Bool := c == '\t' || c == '\r' || c == '\n'

/-- The characters at which an authority ends. -/
def isDelimiter (c : Char) : Bool := c == '/' || c == '?' || c == '#'

def removeUnsafe (s : List Char) : List Char := s.filter (!isUnsafe ·)

/-- A scheme: a letter, and then letters, digits, `+`, `-` and `.`. -/
def isScheme (s : List Char) : Bool := s.head?.any isAsciiAlpha && s.all isSchemeChar

/-- The scheme and the rest, if there is a scheme. -/
def splitScheme (url : List Char) : List Char × List Char :=
  let (scheme, rest) := cut ':' url
  if ':' ∈ url ∧ isScheme scheme then (scheme.map Char.toLower, rest) else ([], url)

/-- `_splitnetloc` -/
def splitNetloc (url : List Char) : List Char × List Char :=
  (url.takeWhile (!isDelimiter ·), url.dropWhile (!isDelimiter ·))

/-- Brackets are there together. -/
def balanced (netloc : List Char) : Bool := decide ('[' ∈ netloc) == decide (']' ∈ netloc)

/-- The checks of an authority: of its brackets, and `check`. -/
def checkNetloc (check : List Char → Except String Unit) (netloc : List Char) :
    Except String Unit :=
  if netloc = [] then .ok ()
  else if balanced netloc then check netloc
  else .error "Invalid IPv6 URL"

/-- `urlsplit` -/
def urlsplit (check : List Char → Except String Unit) (url : List Char) :
    Except String SplitResult := do
  let url := removeUnsafe (url.dropWhile isControlOrSpace)
  let (scheme, url) := splitScheme url
  let (netloc, url) := match url with
    | '/' :: '/' :: rest => splitNetloc rest
    | _ => ([], url)
  checkNetloc check netloc
  let (url, fragment) := cut '#' url
  let (path, query) := cut '?' url
  return { scheme, netloc, path, query, fragment }

/-! ## Printing -/

/-- A part behind its separator, if there is anything to print. -/
def printPart (separator : Char) (part : List Char) : List Char :=
  if part = [] then [] else separator :: part

/-- `urlunsplit` of parts with an authority -/
def urlunsplit (r : SplitResult) : List Char :=
  let path := if r.path ≠ [] ∧ r.path.head? ≠ some '/' then '/' :: r.path else r.path
  let url := '/' :: '/' :: r.netloc ++ path
  let url := if r.scheme ≠ [] then r.scheme ++ ':' :: url else url
  url ++ printPart '?' r.query ++ printPart '#' r.fragment

/-- A path with a query, split and printed. -/
def reprintQuery (url : List Char) : List Char :=
  let (path, query) := cut '?' url
  path ++ printPart '?' query

/-- What follows an authority, split and printed. -/
def reprint (url : List Char) : List Char :=
  let (url, fragment) := cut '#' url
  reprintQuery url ++ printPart '#' fragment

/-- What is printed of the part of a text up to some character. -/
def reprintBefore (s : List Char) : List Char :=
  if '#' ∈ s then
    let (url, fragment) := cut '#' s
    reprintQuery url ++ '#' :: fragment
  else s

/-- What is printed of the part of a text after some character. -/
def reprintAfter (s t : List Char) : List Char :=
  if '#' ∈ s then t
  else if '?' ∈ s then
    let (url, fragment) := cut '#' t
    url ++ printPart '#' fragment
  else reprint t

theorem printPart_append_cons (separator : Char) (s : List Char) (x : Char) (t : List Char) :
    printPart separator (s ++ x :: t) = separator :: (s ++ x :: t) :=
  if_neg (List.append_ne_nil_of_right_ne_nil s (List.cons_ne_nil x t))

theorem reprintQuery_append {s : List Char} (hs : '?' ∉ s) (t : List Char) :
    reprintQuery (s ++ t) = s ++ reprintQuery t := by
  simp only [reprintQuery, cut_append hs, List.append_assoc]

/-- **What is printed of a text with a character inside.** -/
theorem reprint_append {x : Char} (hhash : x ≠ '#') (hquery : x ≠ '?') (s t : List Char) :
    reprint (s ++ x :: t) = reprintBefore s ++ x :: reprintAfter s t := by
  by_cases hs : '#' ∈ s
  · obtain ⟨y, z, rfl, hy⟩ := List.eq_append_cons_of_mem hs
    rw [reprintBefore, reprintAfter, if_pos hs, if_pos hs]
    simp only [reprint, List.append_assoc, List.cons_append, cut_append_cons hy,
      printPart_append_cons]
  have hx : '#' ∉ s ++ [x] := by
    rw [List.mem_append, List.mem_singleton, not_or]
    exact ⟨hs, hhash.symm⟩
  have hcut : cut '#' (s ++ x :: t) = (s ++ x :: (cut '#' t).1, (cut '#' t).2) := by
    have := cut_append hx t
    rwa [List.append_assoc, List.append_assoc] at this
  rw [reprintBefore, reprintAfter, if_neg hs, if_neg hs]
  simp only [reprint, hcut]
  by_cases hq : '?' ∈ s
  · obtain ⟨y, z, rfl, hy⟩ := List.eq_append_cons_of_mem hq
    rw [if_pos hq]
    simp only [reprintQuery, List.append_assoc, List.cons_append, cut_append_cons hy,
      printPart_append_cons]
  · have hxq : '?' ∉ s ++ [x] := by
      rw [List.mem_append, List.mem_singleton, not_or]
      exact ⟨hq, hquery.symm⟩
    have hprint : reprintQuery (s ++ x :: (cut '#' t).1) = s ++ x :: reprintQuery (cut '#' t).1 := by
      have := reprintQuery_append hxq (cut '#' t).1
      rwa [List.append_assoc, List.append_assoc] at this
    rw [if_neg hq, hprint, List.append_assoc, List.cons_append]

/-! ## URLs with a scheme and an authority -/

/-- `scheme://rest` -/
def hierarchical (scheme rest : List Char) : List Char := scheme ++ ':' :: '/' :: '/' :: rest

theorem isSchemeChar_of_mem {scheme : List Char} (h : isScheme scheme) {c : Char} (hc : c ∈ scheme) :
    isSchemeChar c := by
  rw [isScheme, Bool.and_eq_true, List.all_eq_true] at h
  exact h.2 c hc

theorem not_isUnsafe_of_isSchemeChar {c : Char} (h : isSchemeChar c) : isUnsafe c = false := by
  rw [isUnsafe, Bool.or_eq_false_iff, Bool.or_eq_false_iff, beq_eq_false_iff_ne,
    beq_eq_false_iff_ne, beq_eq_false_iff_ne]
  refine ⟨⟨?_, ?_⟩, ?_⟩ <;> rintro rfl <;> revert h <;> decide

theorem colon_notMem {scheme : List Char} (h : isScheme scheme) : ':' ∉ scheme := by
  intro hc
  have hcolon := isSchemeChar_of_mem h hc
  revert hcolon
  decide

theorem dropWhile_scheme {scheme : List Char} (h : isScheme scheme) (rest : List Char) :
    (scheme ++ rest).dropWhile isControlOrSpace = scheme ++ rest := by
  cases scheme with
  | nil => cases h
  | cons c scheme =>
    rw [isScheme, Bool.and_eq_true] at h
    have hletter : isAsciiAlpha c = true := h.1
    refine List.dropWhile_cons_of_neg ?_
    simp only [isAsciiAlpha, isControlOrSpace, Bool.or_eq_true, Bool.and_eq_true,
      decide_eq_true_eq] at hletter ⊢
    omega

theorem removeUnsafe_scheme {scheme : List Char} (h : isScheme scheme) (rest : List Char) :
    removeUnsafe (hierarchical scheme rest) = hierarchical scheme (removeUnsafe rest) := by
  have hscheme : scheme.filter (!isUnsafe ·) = scheme := by
    rw [List.filter_eq_self]
    intro c hc
    rw [not_isUnsafe_of_isSchemeChar (isSchemeChar_of_mem h hc), Bool.not_false]
  rw [removeUnsafe, hierarchical, List.filter_append, hscheme]
  rfl

theorem splitScheme_hierarchical {scheme : List Char} (h : isScheme scheme) (rest : List Char) :
    splitScheme (hierarchical scheme rest) = (scheme.map Char.toLower, '/' :: '/' :: rest) := by
  have hcolon : ':' ∈ hierarchical scheme rest :=
    List.mem_append_right _ List.mem_cons_self
  simp only [splitScheme, hierarchical, cut_append_cons (colon_notMem h)] at hcolon ⊢
  rw [if_pos ⟨hcolon, h⟩]

/-- The authority of what follows `//`. -/
def authority (rest : List Char) : List Char := rest.takeWhile (!isDelimiter ·)

/-- What follows the authority. -/
def afterAuthority (rest : List Char) : List Char := rest.dropWhile (!isDelimiter ·)

theorem urlsplit_hierarchical (check : List Char → Except String Unit) {scheme : List Char}
    (h : isScheme scheme) (rest : List Char) :
    urlsplit check (hierarchical scheme rest) = do
      let rest := removeUnsafe rest
      checkNetloc check (authority rest)
      let (url, fragment) := cut '#' (afterAuthority rest)
      let (path, query) := cut '?' url
      return { scheme := scheme.map Char.toLower, netloc := authority rest, path, query, fragment } := by
  have hurl : removeUnsafe ((hierarchical scheme rest).dropWhile isControlOrSpace) =
      hierarchical scheme (removeUnsafe rest) := by
    rw [hierarchical, dropWhile_scheme h]
    exact removeUnsafe_scheme h rest
  simp only [urlsplit, hurl, splitScheme_hierarchical h, splitNetloc]
  rfl

/-- A path ends where the query begins, and starts with a slash. -/
theorem path_head {rest : List Char} (h : ∀ c ∈ rest.head?, isDelimiter c) :
    (cut '?' (cut '#' rest).1).1 = [] ∨ (cut '?' (cut '#' rest).1).1.head? = some '/' := by
  cases rest with
  | nil => exact .inl rfl
  | cons c rest =>
    have hc : isDelimiter c = true := h c rfl
    simp only [isDelimiter, Bool.or_eq_true, beq_iff_eq] at hc
    rcases hc with (rfl | rfl) | rfl
    · exact .inr rfl
    · exact .inl rfl
    · exact .inl rfl

theorem delimiter_head_afterAuthority (rest : List Char) :
    ∀ c ∈ (afterAuthority rest).head?, isDelimiter c := by
  intro c hc
  have := List.head?_dropWhile_not (!isDelimiter ·) rest
  rw [afterAuthority] at hc
  rw [Option.mem_def.1 hc] at this
  simpa using this

/-- **A URL that was split, printed with another authority.** -/
theorem urlunsplit_of_split (netloc : List Char) {scheme rest : List Char} (hscheme : scheme ≠ [])
    (h : ∀ c ∈ rest.head?, isDelimiter c) :
    urlunsplit
        { scheme, netloc
          path := (cut '?' (cut '#' rest).1).1
          query := (cut '?' (cut '#' rest).1).2
          fragment := (cut '#' rest).2 } =
      hierarchical scheme (netloc ++ reprint rest) := by
  have hpath : ¬ ((cut '?' (cut '#' rest).1).1 ≠ [] ∧
      (cut '?' (cut '#' rest).1).1.head? ≠ some '/') := by
    rintro ⟨hne, hhead⟩
    rcases path_head h with hnil | hslash
    · exact hne hnil
    · exact hhead hslash
  simp only [urlunsplit, if_neg hpath, if_pos hscheme, hierarchical, reprint, reprintQuery,
    List.append_assoc, List.cons_append]

/-! ## The last occurrence of a character -/

theorem append_cons_inj {α : Type} {c : α} {x x' y y' : List α} (hy : c ∉ y) (hy' : c ∉ y')
    (h : x ++ c :: y = x' ++ c :: y') : x = x' ∧ y = y' := by
  rcases List.append_eq_append_iff.1 h with ⟨z, rfl, hz⟩ | ⟨z, rfl, hz⟩
  · rcases z with _ | ⟨a, z⟩
    · exact ⟨(List.append_nil x).symm, (List.cons.inj hz).2⟩
    · rw [List.cons_append, List.cons.injEq] at hz
      rw [hz.2] at hy
      exact absurd (List.mem_append_right z List.mem_cons_self) hy
  · rcases z with _ | ⟨a, z⟩
    · exact ⟨List.append_nil x', (List.cons.inj hz).2.symm⟩
    · rw [List.cons_append, List.cons.injEq] at hz
      rw [hz.2] at hy'
      exact absurd (List.mem_append_right z List.mem_cons_self) hy'

/-! ## Authorities that end inside a text -/

theorem authority_append_of_nil {s : List Char} (h : afterAuthority s = []) (t : List Char) :
    authority (s ++ t) = s ++ authority t ∧ afterAuthority (s ++ t) = afterAuthority t := by
  rw [afterAuthority, List.dropWhile_eq_nil_iff] at h
  exact ⟨List.takeWhile_append_of_pos h, List.dropWhile_append_of_pos h⟩

theorem authority_append_of_ne_nil {s : List Char} (h : afterAuthority s ≠ []) (t : List Char) :
    authority (s ++ t) = authority s ∧ afterAuthority (s ++ t) = afterAuthority s ++ t := by
  have hlen : (s.takeWhile (!isDelimiter ·)).length ≠ s.length := by
    intro heq
    have hsplit := congrArg List.length (List.takeWhile_append_dropWhile (p := (!isDelimiter ·)) (l := s))
    rw [List.length_append, heq, Nat.add_eq_left, List.length_eq_zero_iff] at hsplit
    exact h hsplit
  constructor
  · rw [authority, authority, List.takeWhile_append, if_neg hlen]
  · rw [afterAuthority, afterAuthority, List.dropWhile_append, if_neg]
    rw [List.isEmpty_iff]
    exact h

theorem authority_append_afterAuthority (s : List Char) : authority s ++ afterAuthority s = s :=
  List.takeWhile_append_dropWhile

theorem authority_cons {c : Char} (hc : isDelimiter c = false) (s : List Char) :
    authority (c :: s) = c :: authority s ∧ afterAuthority (c :: s) = afterAuthority s := by
  constructor
  · rw [authority, List.takeWhile_cons_of_pos (by rw [hc]; rfl), authority]
  · rw [afterAuthority, List.dropWhile_cons_of_pos (by rw [hc]; rfl), afterAuthority]

/-! ## Characters that are printed -/

section
variable {x : Char} {s t : List Char}

theorem notMem_printPart {separator : Char} (hx : x ≠ separator) (hs : x ∉ s) :
    x ∉ printPart separator s := by
  rw [printPart]
  split_ifs
  · exact List.not_mem_nil
  · rw [List.mem_cons, not_or]
    exact ⟨hx, hs⟩

theorem notMem_reprint (hhash : x ≠ '#') (hquery : x ≠ '?') (hs : x ∉ s) : x ∉ reprint s := by
  have hurl : x ∉ (cut '#' s).1 := fun h => hs (mem_of_mem_cut (.inl h))
  have hfragment : x ∉ (cut '#' s).2 := fun h => hs (mem_of_mem_cut (.inr h))
  have hpath : x ∉ (cut '?' (cut '#' s).1).1 := fun h => hurl (mem_of_mem_cut (.inl h))
  have hq : x ∉ (cut '?' (cut '#' s).1).2 := fun h => hurl (mem_of_mem_cut (.inr h))
  simp only [reprint, reprintQuery, List.mem_append, not_or]
  exact ⟨⟨hpath, notMem_printPart hquery hq⟩, notMem_printPart hhash hfragment⟩

theorem notMem_reprintAfter (hhash : x ≠ '#') (hquery : x ≠ '?') (ht : x ∉ t) :
    x ∉ reprintAfter s t := by
  rw [reprintAfter]
  split_ifs
  · exact ht
  · simp only [List.mem_append, not_or]
    exact ⟨fun h => ht (mem_of_mem_cut (.inl h)),
      notMem_printPart hhash fun h => ht (mem_of_mem_cut (.inr h))⟩
  · exact notMem_reprint hhash hquery ht

/-- What is printed of the part before determines what is printed of the part after. -/
theorem reprintAfter_congr {s' : List Char} (h : reprintBefore s = reprintBefore s') (t : List Char) :
    reprintAfter s t = reprintAfter s' t := by
  have hmem (s : List Char) : '#' ∈ reprintBefore s ↔ '#' ∈ s := by
    rw [reprintBefore]
    split_ifs with hs
    · exact iff_of_true (List.mem_append_right _ List.mem_cons_self) hs
    · exact Iff.rfl
  by_cases hs : '#' ∈ s
  · have hs' : '#' ∈ s' := by rwa [← hmem, ← h, hmem]
    rw [reprintAfter, reprintAfter, if_pos hs, if_pos hs']
  · have hs' : '#' ∉ s' := by rwa [← hmem, ← h, hmem]
    rw [reprintBefore, reprintBefore, if_neg hs, if_neg hs'] at h
    rw [h]

/-- What is printed of a text that begins with a delimiter begins with one. -/
theorem reprintBefore_head (hs : s ≠ []) (h : ∀ c ∈ s.head?, isDelimiter c) :
    ∃ d rest, reprintBefore s = d :: rest ∧ isDelimiter d := by
  obtain ⟨c, s, rfl⟩ := List.exists_cons_of_ne_nil hs
  have hc : isDelimiter c = true := h c rfl
  rw [reprintBefore]
  split_ifs with hhash
  · simp only [isDelimiter, Bool.or_eq_true, beq_iff_eq] at hc
    rcases hc with (rfl | rfl) | rfl
    · exact ⟨'/', _, rfl, rfl⟩
    · have hcut : cut '#' ('?' :: s) = ('?' :: (cut '#' s).1, (cut '#' s).2) := rfl
      have hquery : reprintQuery ('?' :: (cut '#' s).1) = printPart '?' (cut '#' s).1 := rfl
      simp only [hcut, hquery, printPart]
      split_ifs
      · exact ⟨'#', _, rfl, rfl⟩
      · exact ⟨'?', _, rfl, rfl⟩
    · exact ⟨'#', _, rfl, rfl⟩
  · exact ⟨c, s, rfl, hc⟩

/-- A text without delimiters before one that begins with a delimiter. -/
theorem append_inj_of_delimiter {x x' y y' : List Char} (hx : ∀ c ∈ x, (!isDelimiter c) = true)
    (hx' : ∀ c ∈ x', (!isDelimiter c) = true) (hy : ∃ d rest, y = d :: rest ∧ isDelimiter d)
    (hy' : ∃ d rest, y' = d :: rest ∧ isDelimiter d) (h : x ++ y = x' ++ y') : y = y' := by
  have hafter {x y : List Char} (hx : ∀ c ∈ x, (!isDelimiter c) = true)
      (hy : ∃ d rest, y = d :: rest ∧ isDelimiter d) : afterAuthority (x ++ y) = y := by
    obtain ⟨d, rest, rfl, hd⟩ := hy
    rw [afterAuthority, List.dropWhile_append_of_pos hx,
      List.dropWhile_cons_of_neg (by rw [hd]; exact Bool.false_ne_true)]
  rw [← hafter hx hy, h, hafter hx' hy']

end

end Urls
