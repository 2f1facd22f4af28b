/-
  The masking of options and metadata (`app/config.py`).

  Two mappings are masked to equal ones exactly if they are `LowEquivalent`: what
  stands under sensitive keys does not show, and everything else does.
-/
import PlcGateway.App.Texts
import PlcGateway.Domain.Json
import Mathlib.Data.List.Infix

namespace PlcGateway

/-- `_SENSITIVE_KEY_FRAGMENTS` -/
def sensitiveKeyFragments : List String :=
  ["password", "passwd", "secret", "token", "key", "credential"]

/-- `_is_sensitive_key` -/
def isSensitiveKey (u : CaseMapping) (key : String) : Bool :=
  let normalized := u.lower key
  sensitiveKeyFragments.any fun fragment => decide (fragment.toList <:+: normalized.toList)

section
variable (u : CaseMapping)

mutual

/-- `_mask_sequence_item` -/
def maskSequenceItem : Json → Json
  | .dict fields => .dict (maskMapping fields)
  | .list items => .list (maskSequence items)
  | value => value

def maskSequence : List Json → List Json
  | [] => []
  | item :: items => maskSequenceItem item :: maskSequence items

/-- `_mask_mapping` -/
def maskMapping : List (String × Json) → List (String × Json)
  | [] => []
  | (key, .dict nested) :: fields =>
    (key, if isSensitiveKey u key then .str "***" else .dict (maskMapping nested)) ::
      maskMapping fields
  | (key, .list items) :: fields =>
    (key, if isSensitiveKey u key then .str "***" else .list (maskSequence items)) ::
      maskMapping fields
  | (key, value) :: fields =>
    (key, if isSensitiveKey u key then .str "***" else value) :: maskMapping fields

end

/-- What is logged for a value under a key. -/
def maskValue (key : String) (value : Json) : Json :=
  if isSensitiveKey u key then .str "***" else maskSequenceItem u value

theorem maskSequenceItem_scalar {x : Json} (hx : x.isScalar) : maskSequenceItem u x = x := by
  cases x with
  | list items => cases hx
  | dict fields => cases hx
  | null | bool | int | float | str => simp only [maskSequenceItem]

theorem maskMapping_cons (key : String) (value : Json) (fields : List (String × Json)) :
    maskMapping u ((key, value) :: fields) = (key, maskValue u key value) :: maskMapping u fields := by
  rw [maskValue]
  cases value <;> simp only [maskMapping, maskSequenceItem]

theorem lookup_maskMapping (fields : List (String × Json)) (key : String) :
    (maskMapping u fields).lookup key = (fields.lookup key).map (maskValue u key) := by
  induction fields with
  | nil => simp only [maskMapping, List.lookup_nil, Option.map_none]
  | cons field fields ih =>
    obtain ⟨k, value⟩ := field
    rw [maskMapping_cons, List.lookup_cons, List.lookup_cons, ih]
    cases h : key == k with
    | true => rw [eq_of_beq h]; rfl
    | false => rfl

theorem maskSequence_eq (items : List Json) : maskSequence u items = items.map (maskSequenceItem u) := by
  induction items with
  | nil => rw [maskSequence, List.map_nil]
  | cons item items ih => rw [maskSequence, List.map_cons, ih]

end

/-- Equal, but for what stands under sensitive keys. -/
inductive LowEquivalent (u : CaseMapping) (same : Json → Json → Prop) : Json → Json → Prop
  | scalar {a b} : a.isScalar → b.isScalar → same a b → LowEquivalent u same a b
  | list {xs ys} : xs.length = ys.length →
      (∀ (i : ℕ) x y, xs[i]? = some x → ys[i]? = some y → LowEquivalent u same x y) →
      LowEquivalent u same (.list xs) (.list ys)
  | dict {f g} : (∀ key, (f.lookup key).isSome = (g.lookup key).isSome) →
      (∀ key x y, isSensitiveKey u key = false → f.lookup key = some x → g.lookup key = some y →
        LowEquivalent u same x y) →
      LowEquivalent u same (.dict f) (.dict g)

section
variable {u : CaseMapping} {same : Json → Json → Prop}

theorem isSome_lookup_maskMapping (fields : List (String × Json)) (key : String) :
    ((maskMapping u fields).lookup key).isSome = (fields.lookup key).isSome := by
  rw [lookup_maskMapping, Option.isSome_map]

theorem getElem_maskSequence {items : List Json} {i : ℕ} {x : Json} (h : items[i]? = some x) :
    (maskSequence u items)[i]? = some (maskSequenceItem u x) := by
  rw [maskSequence_eq, List.getElem?_map, h, Option.map_some]

theorem lookup_masked {fields : List (String × Json)} {key : String} {x : Json}
    (h : fields.lookup key = some x) :
    (maskMapping u fields).lookup key = some (maskValue u key x) := by
  rw [lookup_maskMapping, h, Option.map_some]

/-- What is masked shows nothing of what stands under sensitive keys. -/
theorem equal_of_lowEquivalent (hsame : same (.str "***") (.str "***")) {x y : Json}
    (h : LowEquivalent u same x y) :
    Json.Equal same (maskSequenceItem u x) (maskSequenceItem u y) := by
  induction h with
  | scalar ha hb hab =>
    rw [maskSequenceItem_scalar u ha, maskSequenceItem_scalar u hb]
    exact .scalar ha hb hab
  | @list xs ys hlen _ ih =>
    rw [maskSequenceItem, maskSequenceItem, maskSequence_eq, maskSequence_eq]
    refine .list (by rw [List.length_map, List.length_map, hlen]) fun i x' y' hx hy => ?_
    rw [List.getElem?_map, Option.map_eq_some_iff] at hx hy
    obtain ⟨x, hx, rfl⟩ := hx
    obtain ⟨y, hy, rfl⟩ := hy
    exact ih i x y hx hy
  | @dict f g hkeys _ ih =>
    rw [maskSequenceItem, maskSequenceItem]
    refine .dict (fun key => ?_) fun key x' y' hx hy => ?_
    · rw [isSome_lookup_maskMapping, isSome_lookup_maskMapping, hkeys]
    rw [lookup_maskMapping, Option.map_eq_some_iff] at hx hy
    obtain ⟨x, hx, rfl⟩ := hx
    obtain ⟨y, hy, rfl⟩ := hy
    cases hkey : isSensitiveKey u key with
    | true =>
      rw [maskValue, maskValue, if_pos hkey, if_pos hkey]
      exact .scalar rfl rfl hsame
    | false =>
      rw [maskValue, maskValue, if_neg (by rw [hkey]; nofun), if_neg (by rw [hkey]; nofun)]
      exact ih key x y hkey hx hy

theorem eq_scalar_of_masked {x a : Json} (ha : a.isScalar) (h : maskSequenceItem u x = a) :
    x = a := by
  rcases x.shape with hx | ⟨items, rfl⟩ | ⟨fields, rfl⟩
  · rw [← h, maskSequenceItem_scalar u hx]
  · rw [← h, maskSequenceItem] at ha
    cases ha
  · rw [← h, maskSequenceItem] at ha
    cases ha

theorem eq_list_of_masked {x : Json} {ys : List Json} (h : maskSequenceItem u x = .list ys) :
    ∃ xs, x = .list xs ∧ ys = maskSequence u xs := by
  rcases x.shape with hx | ⟨items, rfl⟩ | ⟨fields, rfl⟩
  · rw [maskSequenceItem_scalar u hx] at h
    rw [h] at hx
    cases hx
  · rw [maskSequenceItem] at h
    cases h
    exact ⟨items, rfl, rfl⟩
  · rw [maskSequenceItem] at h
    cases h

theorem eq_dict_of_masked {x : Json} {g : List (String × Json)} (h : maskSequenceItem u x = .dict g) :
    ∃ f, x = .dict f ∧ g = maskMapping u f := by
  rcases x.shape with hx | ⟨items, rfl⟩ | ⟨fields, rfl⟩
  · rw [maskSequenceItem_scalar u hx] at h
    rw [h] at hx
    cases hx
  · rw [maskSequenceItem] at h
    cases h
  · rw [maskSequenceItem] at h
    cases h
    exact ⟨fields, rfl, rfl⟩

/-- What is masked shows everything else. -/
theorem lowEquivalent_of_equal {x y x' y' : Json} (h : Json.Equal same x' y')
    (hx : maskSequenceItem u x = x') (hy : maskSequenceItem u y = y') :
    LowEquivalent u same x y := by
  induction h generalizing x y with
  | scalar ha hb hab =>
    rw [eq_scalar_of_masked ha hx, eq_scalar_of_masked hb hy]
    exact .scalar ha hb hab
  | list hlen _ ih =>
    obtain ⟨xs, rfl, rfl⟩ := eq_list_of_masked hx
    obtain ⟨ys, rfl, rfl⟩ := eq_list_of_masked hy
    refine .list ?_ fun i x y hx hy => ?_
    · rw [maskSequence_eq, maskSequence_eq, List.length_map, List.length_map] at hlen
      exact hlen
    · exact ih i _ _ (getElem_maskSequence hx) (getElem_maskSequence hy) rfl rfl
  | dict hkeys _ ih =>
    obtain ⟨f, rfl, rfl⟩ := eq_dict_of_masked hx
    obtain ⟨g, rfl, rfl⟩ := eq_dict_of_masked hy
    refine .dict (fun key => ?_) fun key x y hkey hx hy => ?_
    · rw [← isSome_lookup_maskMapping (u := u), hkeys, isSome_lookup_maskMapping]
    · have hplain (v : Json) : maskSequenceItem u v = maskValue u key v := by
        rw [maskValue, if_neg (by rw [hkey]; nofun)]
      exact ih key _ _ (lookup_masked hx) (lookup_masked hy) (hplain x) (hplain y)

end

/-- **Option masking hides exactly the secrets.** -/
theorem masked_equal_iff (u : CaseMapping) (same : Json → Json → Prop)
    (hsame : same (.str "***") (.str "***")) (m m' : List (String × Json)) :
    Json.Equal same (.dict (maskMapping u m)) (.dict (maskMapping u m')) ↔
      LowEquivalent u same (.dict m) (.dict m') := by
  constructor
  · intro h
    exact lowEquivalent_of_equal h (by rw [maskSequenceItem]) (by rw [maskSequenceItem])
  · intro h
    have hequal := equal_of_lowEquivalent hsame h
    rw [maskSequenceItem, maskSequenceItem] at hequal
    exact hequal

/-- Options with a password in an object in a list in a list. -/
def nestedOptions (password : String) : List (String × Json) :=
  [("username", .str "operator"),
    ("security", .list [.list [.dict [("Password", .str password), ("mode", .int 1)]]])]

theorem masked_equal_iff_nested :
    Json.Equal Eq (.dict (maskMapping asciiCase (nestedOptions "do-not-log")))
        (.dict (maskMapping asciiCase (nestedOptions "hunter2"))) ↔
      LowEquivalent asciiCase Eq (.dict (nestedOptions "do-not-log"))
        (.dict (nestedOptions "hunter2")) :=
  masked_equal_iff asciiCase Eq rfl _ _

end PlcGateway
