import Mathlib.Data.List.Basic
import Mathlib.Data.List.Nodup

/-!
# Overlaying keyed lists

A list of keyed items is overlaid with another: an item takes the place of the first item of its
key, or goes to the end. The overlay is determined by the order of its keys and by its fibers,
the items of each key.

## Main definitions

* `put`, `putAll`: overlaying one item, and all items of a list
* `fiber`: the items of a key

## Main results

* `fiber_putAll`: the last item of a key replaces the first that was there
* `ext_fiber`: lists with the same keys and the same fibers are the same
* `putAll_assoc_keys`: the order of the keys does not depend on the grouping
-/

namespace Overlay

variable {α β κ : Type} [DecidableEq κ] {key : α → κ} {items incoming : List α} {item : α} {k : κ}

/-- Put an item in the place of the first item of its key. -/
def put (key : α → κ) (item : α) : List α → List α
  | [] => [item]
  | a :: rest => if key a = key item then item :: rest else a :: put key item rest

/-- Put the items of a list in order. -/
def putAll (key : α → κ) (items : List α) : List α → List α
  | [] => items
  | item :: rest => putAll key (put key item items) rest

/-- The items of a key, in order. -/
def fiber (key : α → κ) (k : κ) (items : List α) : List α := items.filter fun a => key a = k

/-! ## Replacing the first item -/

section Replaced

variable {p : Option α}

/-- Replacing the first item of a list, if there is one or an item to replace it. -/
theorem head_replaced :
    ((p.or items.head?).toList ++ items.tail).head? = p.or items.head? := by
  cases p with
  | some a => rfl
  | none => cases items <;> rfl

theorem tail_replaced :
    ((p.or items.head?).toList ++ items.tail).tail = items.tail := by
  cases p with
  | some a => rfl
  | none => cases items <;> rfl

theorem map_replaced {f : α → β} :
    ((p.or items.head?).toList ++ items.tail).map f =
      ((p.map f).or (items.map f).head?).toList ++ (items.map f).tail := by
  cases p with
  | some a => simp
  | none => cases items <;> simp

/-- Two lists whose first items are replaced. -/
theorem replaced_inj {f g : α → β} {p q : Option β} :
    (p.or (items.map f).head?).toList ++ (items.map f).tail =
        (q.or (items.map g).head?).toList ++ (items.map g).tail ↔
      p.or (items.map f).head? = q.or (items.map g).head? ∧
        (items.map f).tail = (items.map g).tail := by
  cases items with
  | nil => cases p <;> cases q <;> simp
  | cons a items => cases p <;> cases q <;> simp

/-- The last of a list whose first item is replaced. -/
theorem getLast_replaced :
    ((p.or items.head?).toList ++ items.tail).getLast? =
      if 1 < items.length then items.getLast? else p.or items.getLast? := by
  rcases items with _ | ⟨a, _ | ⟨b, items⟩⟩
  · cases p <;> rfl
  · cases p <;> rfl
  · cases p <;> simp

end Replaced

/-! ## Fibers -/

theorem mem_fiber {a : α} : a ∈ fiber key k items ↔ a ∈ items ∧ key a = k := by
  simp [fiber]

theorem fiber_cons {a : α} :
    fiber key k (a :: items) = if key a = k then a :: fiber key k items else fiber key k items := by
  unfold fiber
  by_cases h : key a = k <;> simp [h]

theorem fiber_put : fiber key k (put key item items) =
    if key item = k then item :: (fiber key k items).tail else fiber key k items := by
  induction items with
  | nil =>
    rw [put, fiber_cons]
    rfl
  | cons a items ih =>
    rw [put]
    by_cases hkey : key a = key item
    · rw [if_pos hkey, fiber_cons, fiber_cons, hkey]
      split <;> rfl
    · rw [if_neg hkey, fiber_cons, fiber_cons, ih]
      by_cases hk : key item = k
      · have ha : key a ≠ k := fun h => hkey (h.trans hk.symm)
        rw [if_pos hk, if_neg ha, if_neg ha]
        exact (if_pos hk).symm
      · rw [if_neg hk, if_neg hk]

/-- The last item of a key replaces the first one that was there. -/
theorem fiber_putAll : fiber key k (putAll key items incoming) =
    ((fiber key k incoming).getLast?.or (fiber key k items).head?).toList ++
      (fiber key k items).tail := by
  induction incoming generalizing items with
  | nil =>
    show fiber key k items = _
    cases fiber key k items <;> rfl
  | cons item incoming ih =>
    rw [putAll, ih, fiber_put, fiber_cons]
    by_cases hk : key item = k
    · rw [if_pos hk, if_pos hk, List.getLast?_cons]
      cases (fiber key k incoming).getLast? <;> rfl
    · rw [if_neg hk, if_neg hk]

theorem fiber_eq_nil (h : k ∉ items.map key) : fiber key k items = [] :=
  List.filter_eq_nil_iff.mpr fun a ha hk => h (List.mem_map.mpr ⟨a, ha, by simpa using hk⟩)

theorem tail_fiber_of_nodup (h : (items.map key).Nodup) : (fiber key k items).tail = [] := by
  induction items with
  | nil => rfl
  | cons a items ih =>
    rw [List.map_cons, List.nodup_cons] at h
    rw [fiber_cons]
    split
    · rename_i hk
      exact fiber_eq_nil (hk ▸ h.1)
    · exact ih h.2

theorem nodup_of_tail_fiber (h : ∀ k, (fiber key k items).tail = []) :
    (items.map key).Nodup := by
  induction items with
  | nil => exact List.nodup_nil
  | cons a items ih =>
    rw [List.map_cons, List.nodup_cons]
    constructor
    · intro hmem
      obtain ⟨b, hb, hkey⟩ := List.mem_map.mp hmem
      have htail := h (key a)
      rw [fiber_cons, if_pos rfl, List.tail_cons] at htail
      exact List.ne_nil_of_mem (mem_fiber.mpr ⟨hb, hkey⟩) htail
    · refine ih fun k => ?_
      have htail := h k
      rw [fiber_cons] at htail
      split at htail
      · rw [List.tail_cons] at htail
        rw [htail]
        rfl
      · exact htail

/-- An item of the overlay comes from one of the two lists. -/
theorem mem_of_mem_putAll {a : α} (h : a ∈ putAll key items incoming) :
    a ∈ items ∨ a ∈ incoming := by
  have hfiber : a ∈ fiber key (key a) (putAll key items incoming) := mem_fiber.mpr ⟨h, rfl⟩
  rw [fiber_putAll, List.mem_append, Option.mem_toList, Option.or_eq_some_iff]
    at hfiber
  rcases hfiber with (hlast | ⟨-, hhead⟩) | htail
  · exact .inr (mem_fiber.mp (List.mem_of_getLast? hlast)).1
  · exact .inl (mem_fiber.mp (List.mem_of_head? hhead)).1
  · exact .inl (mem_fiber.mp (List.mem_of_mem_tail htail)).1

/-- An item whose key is not overlaid stays. -/
theorem mem_putAll_of_not_mem {a : α} (h : a ∈ items) (hkey : key a ∉ incoming.map key) :
    a ∈ putAll key items incoming := by
  refine (mem_fiber.mp (?_ : a ∈ fiber key (key a) _)).1
  have hmem : a ∈ fiber key (key a) items := mem_fiber.mpr ⟨h, rfl⟩
  rw [fiber_putAll, fiber_eq_nil hkey]
  cases hfiber : fiber key (key a) items with
  | nil => rwa [hfiber] at hmem
  | cons b rest => rwa [hfiber] at hmem

/-- What is overlaid with is found in the overlay when it does not repeat keys. -/
theorem mem_putAll_of_mem {a : α} (h : a ∈ incoming) (hnodup : (incoming.map key).Nodup) :
    a ∈ putAll key items incoming := by
  refine (mem_fiber.mp (?_ : a ∈ fiber key (key a) _)).1
  have hmem : a ∈ fiber key (key a) incoming := mem_fiber.mpr ⟨h, rfl⟩
  have htail := tail_fiber_of_nodup (k := key a) hnodup
  rw [fiber_putAll]
  cases hfiber : fiber key (key a) incoming with
  | nil => rw [hfiber] at hmem; cases hmem
  | cons b rest =>
    rw [hfiber, List.tail_cons] at htail
    rw [hfiber, htail] at hmem
    simp [htail, List.mem_singleton.mp hmem]

theorem fiber_map {key' : β → κ} (f : α → β) (hf : ∀ a, key' (f a) = key a) :
    fiber key' k (items.map f) = (fiber key k items).map f := by
  unfold fiber
  rw [List.filter_map]
  congr 1
  refine List.filter_congr fun a _ => ?_
  show decide (key' (f a) = k) = decide (key a = k)
  rw [hf]

theorem tail_fiber_putAll :
    (fiber key k (putAll key items incoming)).tail = (fiber key k items).tail := by
  rw [fiber_putAll]
  cases fiber key k items with
  | nil => cases (fiber key k incoming).getLast? <;> rfl
  | cons a rest => cases (fiber key k incoming).getLast? <;> rfl

/-! ## What stays -/

/-- An item that stays however the listed keys are overlaid: it is not the first of its key, or
its key is not listed. -/
def Stays (key : α → κ) (listed : κ → Prop) (items : List α) (a : α) : Prop :=
  a ∈ (fiber key (key a) items).tail ∨ a ∈ items ∧ ¬ listed (key a)

theorem stays_map {key' : β → κ} {listed : κ → Prop} {f : α → β} (hf : ∀ a, key' (f a) = key a)
    {b : β} : Stays key' listed (items.map f) b ↔ ∃ a, Stays key listed items a ∧ f a = b := by
  simp only [Stays, fiber_map f hf, ← List.map_tail, List.mem_map]
  constructor
  · rintro (⟨a, ha, rfl⟩ | ⟨⟨a, ha, rfl⟩, hlisted⟩)
    · exact ⟨a, .inl (hf a ▸ ha), rfl⟩
    · exact ⟨a, .inr ⟨ha, hf a ▸ hlisted⟩, rfl⟩
  · rintro ⟨a, ha | ⟨ha, hlisted⟩, rfl⟩
    · exact .inl ⟨a, (hf a).symm ▸ ha, rfl⟩
    · exact .inr ⟨⟨a, ha, rfl⟩, (hf a).symm ▸ hlisted⟩

/-- Some item stays unless keys are told apart and all are listed. -/
theorem exists_stays {listed : κ → Prop} : (∃ a, Stays key listed items a) ↔
    ¬ (items.map key).Nodup ∨ ∃ a ∈ items, ¬ listed (key a) := by
  constructor
  · rintro ⟨a, ha | ⟨ha, hlisted⟩⟩
    · refine .inl fun hnodup => ?_
      rw [tail_fiber_of_nodup hnodup] at ha
      cases ha
    · exact .inr ⟨a, ha, hlisted⟩
  · rintro (hnodup | ⟨a, ha, hlisted⟩)
    · by_contra hnone
      refine hnodup (nodup_of_tail_fiber fun k => List.eq_nil_iff_forall_not_mem.mpr ?_)
      intro a ha
      have hk : key a = k := (mem_fiber.mp (List.mem_of_mem_tail ha)).2
      exact hnone ⟨a, .inl (hk ▸ ha)⟩
    · exact ⟨a, .inr ⟨ha, hlisted⟩⟩

/-- The overlay is what stays, and the last item of each key that is overlaid with. -/
theorem mem_putAll {a : α} : a ∈ putAll key items incoming ↔
    Stays key (· ∈ incoming.map key) items a ∨ (fiber key (key a) incoming).getLast? = some a := by
  have hmem : a ∈ putAll key items incoming ↔ a ∈ fiber key (key a) (putAll key items incoming) :=
    (mem_fiber.trans (and_iff_left rfl)).symm
  rw [hmem, fiber_putAll, List.mem_append, Option.mem_toList, Option.or_eq_some_iff, Stays]
  by_cases hkey : key a ∈ incoming.map key
  · have hsome : (fiber key (key a) incoming).getLast? ≠ none := by
      obtain ⟨b, hb, hba⟩ := List.mem_map.mp hkey
      rw [ne_eq, List.getLast?_eq_none_iff]
      exact List.ne_nil_of_mem (mem_fiber.mpr ⟨hb, hba⟩)
    simp only [hkey, not_true_eq_false, and_false, or_false, hsome, false_and]
    exact Or.comm
  · rw [fiber_eq_nil hkey]
    simp only [hkey, not_false_eq_true, and_true, List.getLast?_nil, reduceCtorEq, true_and,
      false_or, or_false]
    have hfiber : a ∈ items ↔ a ∈ fiber key (key a) items :=
      (mem_fiber.trans (and_iff_left rfl)).symm
    rw [hfiber]
    cases fiber key (key a) items with
    | nil => simp
    | cons b rest =>
      rw [List.head?_cons, List.tail_cons, List.mem_cons, Option.some.injEq]
      constructor
      · rintro (rfl | h)
        · exact .inr (.inl rfl)
        · exact .inl h
      · rintro (h | rfl | h)
        · exact .inr h
        · exact .inl rfl
        · exact .inr h

/-- What stays of an overlay stays of its base, or is what it was overlaid with. -/
theorem stays_putAll {listed : κ → Prop} {a : α} :
    Stays key listed (putAll key items incoming) a ↔
      Stays key (fun k => k ∈ incoming.map key ∨ listed k) items a ∨
        (fiber key (key a) incoming).getLast? = some a ∧ ¬ listed (key a) := by
  rw [Stays, tail_fiber_putAll, mem_putAll, Stays, Stays]
  tauto

/-! ## Keys -/

/-- Overlaying commutes with a map that keeps the keys. -/
theorem map_putAll {key' : β → κ} (f : α → β) (hf : ∀ a, key' (f a) = key a) :
    (putAll key items incoming).map f = putAll key' (items.map f) (incoming.map f) := by
  have hput (item : α) (items : List α) :
      (put key item items).map f = put key' (f item) (items.map f) := by
    induction items with
    | nil => rfl
    | cons a items ih =>
      rw [put, List.map_cons, put, hf, hf]
      split
      · rfl
      · rw [List.map_cons, ih]
  induction incoming generalizing items with
  | nil => rfl
  | cons item incoming ih => rw [putAll, ih, hput, List.map_cons, putAll]

theorem keys_putAll : (putAll key items incoming).map key =
    putAll id (items.map key) (incoming.map key) :=
  map_putAll key fun _ => rfl

theorem put_key {keys : List κ} : put id k keys = if k ∈ keys then keys else keys ++ [k] := by
  induction keys with
  | nil => rfl
  | cons a keys ih =>
    rw [put, ih]
    by_cases h : a = k
    · simp [h]
    · have hne : k ≠ a := fun h' => h h'.symm
      by_cases hk : k ∈ keys <;> simp [h, hne, hk]

theorem mem_putAll_keys {keys ks : List κ} : k ∈ putAll id keys ks ↔ k ∈ keys ∨ k ∈ ks := by
  induction ks generalizing keys with
  | nil => simp [putAll]
  | cons k' ks ih =>
    have hput : k ∈ put id k' keys ↔ k ∈ keys ∨ k = k' := by
      rw [put_key]
      split
      · rename_i hmem
        refine ⟨.inl, ?_⟩
        rintro (h | rfl)
        · exact h
        · exact hmem
      · rw [List.mem_append, List.mem_singleton]
    rw [putAll, ih, hput, List.mem_cons, or_assoc]

theorem mem_keys_putAll : k ∈ (putAll key items incoming).map key ↔
    k ∈ items.map key ∨ k ∈ incoming.map key := by
  rw [keys_putAll, mem_putAll_keys]

/-- Overlaying does not repeat keys that were not repeated. -/
theorem nodup_keys_putAll (h : (items.map key).Nodup) :
    ((putAll key items incoming).map key).Nodup := by
  refine nodup_of_tail_fiber fun k => ?_
  rw [fiber_putAll, tail_fiber_of_nodup h, List.append_nil]
  cases (fiber key k incoming).getLast?.or (fiber key k items).head? <;> rfl

theorem putAll_put_keys {keys ks : List κ} :
    putAll id keys (put id k ks) = put id k (putAll id keys ks) := by
  have happend (ks : List κ) : putAll id keys (ks ++ [k]) = put id k (putAll id keys ks) := by
    induction ks generalizing keys with
    | nil => rfl
    | cons k' ks ih => exact ih
  rw [put_key]
  split
  · rename_i hmem
    rw [put_key, if_pos (mem_putAll_keys.mpr (.inr hmem))]
  · exact happend ks

/-- The order of the keys does not depend on the grouping. -/
theorem putAll_assoc_keys {as bs cs : List κ} :
    putAll id (putAll id as bs) cs = putAll id as (putAll id bs cs) := by
  induction cs generalizing bs with
  | nil => rfl
  | cons k cs ih => rw [putAll, putAll, ← ih, putAll_put_keys]

/-- Lists with the same keys in order and the same items of each key are the same. -/
theorem ext_fiber {as bs : List α} (hkeys : as.map key = bs.map key)
    (hfiber : ∀ k, fiber key k as = fiber key k bs) : as = bs := by
  induction as generalizing bs with
  | nil => exact (List.map_eq_nil_iff.mp hkeys.symm).symm
  | cons a as ih =>
    cases bs with
    | nil => cases hkeys
    | cons b bs =>
      rw [List.map_cons, List.map_cons, List.cons.injEq] at hkeys
      obtain ⟨hkey, hkeys⟩ := hkeys
      have hhead := hfiber (key a)
      rw [fiber_cons, fiber_cons, if_pos rfl, if_pos hkey.symm, List.cons.injEq] at hhead
      obtain ⟨rfl, hrest⟩ := hhead
      congr 1
      refine ih hkeys fun k => ?_
      by_cases hk : key a = k
      · rw [← hk, hrest]
      · have := hfiber k
        rwa [fiber_cons, fiber_cons, if_neg hk, if_neg hk] at this

end Overlay
