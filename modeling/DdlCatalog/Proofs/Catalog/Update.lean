import DdlCatalog.Proofs.Catalog.Named
import Mathlib.Data.List.Forall2
import Mathlib.Data.List.Nodup

/-!
# Collections that are changed again and again

* names: a change keeps the names that are there, in their places, and adds at most new ones behind them
  (`names_prefix_putAll`, `nodup_names_putAll`);
* contents: `find?_putAll`, and `mem_of_mem_put` and its kin;
* `putAll_putAll` : a change made twice is a change made once;
* `eq_of_find?_eq` : a collection in order is told by what can be found in it;
* `ensure` — a change that only makes sure of a name;
* `forall₂_putAll` : alike changes leave alike collections alike.
-/

namespace DdlCatalog.Named

variable {α : Type} [Named α] {a b : α} {n : String} {xs things later : List α}

/-- The collection with a thing of a given name, a fresh one if it had none. -/
def ensure (n : String) (things : List α) : List α :=
  put (get n things) things

/-! ### Names stay in their places -/

theorem mem_names_iff : n ∈ names things ↔ (find? n things).isSome := by
  rw [find?, List.find?_isSome]
  simp [names]

theorem names_prefix_put (a : α) (things : List α) : names things <+: names (put a things) := by
  rw [names_put]
  split
  · exact List.prefix_refl _
  · exact List.prefix_append _ _

theorem names_prefix_putAll (xs things : List α) : names things <+: names (putAll xs things) := by
  induction xs generalizing things with
  | nil => exact List.prefix_refl _
  | cons a xs ih => exact (names_prefix_put a things).trans (ih (put a things))

theorem nodup_names_put (h : (names things).Nodup) : (names (put a things)).Nodup := by
  rw [names_put]
  split
  · exact h
  next ha =>
    refine List.nodup_append.2 ⟨h, by simp, fun m hm k hk => ?_⟩
    rintro rfl
    obtain rfl : m = name a := by simpa using hk
    exact ha hm

theorem nodup_names_putAll (h : (names things).Nodup) : (names (putAll xs things)).Nodup := by
  induction xs generalizing things with
  | nil => exact h
  | cons a xs ih => exact ih (nodup_names_put h)

theorem names_ensure (n : String) (things : List α) :
    names (ensure n things) = if n ∈ names things then names things else names things ++ [n] := by
  unfold ensure
  rw [names_put, name_get]

theorem names_prefix_ensure (n : String) (things : List α) : names things <+: names (ensure n things) :=
  names_prefix_put _ _

theorem nodup_names_ensure (h : (names things).Nodup) : (names (ensure n things)).Nodup :=
  nodup_names_put h

/-! ### What is in a collection -/

theorem mem_of_mem_put (h : b ∈ put a things) : b = a ∨ b ∈ things := by
  induction things with
  | nil => exact .inl (by simpa [put] using h)
  | cons c things ih =>
    unfold put at h
    split at h
    · rcases List.mem_cons.1 h with rfl | h
      · exact .inl rfl
      · exact .inr (List.mem_cons_of_mem _ h)
    · rcases List.mem_cons.1 h with rfl | h
      · exact .inr List.mem_cons_self
      · exact (ih h).imp_right (List.mem_cons_of_mem _)

theorem mem_of_mem_putAll (h : b ∈ putAll xs things) : b ∈ xs ∨ b ∈ things := by
  induction xs generalizing things with
  | nil => exact .inr h
  | cons a xs ih =>
    have h : b ∈ putAll xs (put a things) := h
    rcases ih h with h | h
    · exact .inl (List.mem_cons_of_mem _ h)
    · rcases mem_of_mem_put h with rfl | h
      · exact .inl List.mem_cons_self
      · exact .inr h

theorem mem_of_mem_ensure (h : b ∈ ensure n things) : b = fresh n ∨ b ∈ things := by
  rcases mem_of_mem_put h with rfl | h
  · unfold get
    cases hf : find? n things with
    | none => exact .inl rfl
    | some c => exact .inr (List.mem_of_find?_eq_some hf)
  · exact .inr h

/-- The last thing of a name is the first of them only if no later one has the name. -/
theorem find?_reverse_cons (n : String) (a : α) (xs : List α) :
    find? n (a :: xs).reverse = (find? n xs.reverse).or (if name a = n then some a else none) := by
  unfold find?
  rw [List.reverse_cons, List.find?_append]
  congr 1
  by_cases h : name a = n <;> simp [h]

/-- A name stands for the last thing that has been put there with it. -/
theorem find?_putAll (xs things : List α) (n : String) :
    find? n (putAll xs things) = (find? n xs.reverse).or (find? n things) := by
  induction xs generalizing things with
  | nil => rfl
  | cons a xs ih =>
    have hput : putAll (a :: xs) things = putAll xs (put a things) := rfl
    rw [hput, ih, find?_put, find?_reverse_cons, Option.or_assoc]
    congr 1
    split <;> rfl

/-- What is put into a collection is found there, whatever was there before. -/
theorem exists_find?_putAll (h : n ∈ names xs) : ∃ a, ∀ things, find? n (putAll xs things) = some a := by
  have hr : n ∈ names xs.reverse := by
    unfold names at h ⊢
    rwa [List.map_reverse, List.mem_reverse]
  obtain ⟨a, ha⟩ := Option.isSome_iff_exists.1 (mem_names_iff.1 hr)
  refine ⟨a, fun things => ?_⟩
  rw [find?_putAll, ha]
  rfl

/-! ### The same change again -/

theorem put_cons_of_eq (h : name b = name a) : put a (b :: things) = a :: things := by
  rw [put, if_pos h]

theorem put_cons_of_ne (h : name b ≠ name a) : put a (b :: things) = b :: put a things := by
  rw [put, if_neg h]

/-- The first thing of a collection is replaced by the last one of its name; the others go to the rest. -/
theorem putAll_cons (xs : List α) (b : α) (things : List α) :
    putAll xs (b :: things) =
      (find? (name b) xs.reverse).getD b :: putAll (xs.filter fun a => name a ≠ name b) things := by
  induction xs generalizing b things with
  | nil => rfl
  | cons a xs ih =>
    have hput : putAll (a :: xs) (b :: things) = putAll xs (put a (b :: things)) := rfl
    rw [hput]
    by_cases h : name b = name a
    · have hfirst : (find? (name b) (a :: xs).reverse).getD b = (find? (name a) xs.reverse).getD a := by
        rw [find?_reverse_cons, h, if_pos rfl]
        cases find? (name a) xs.reverse <;> rfl
      have hrest : (a :: xs).filter (fun c => name c ≠ name b) = xs.filter fun c => name c ≠ name a := by
        simp [h]
      rw [put_cons_of_eq h, ih, hfirst, hrest]
    · have h' : ¬ name a = name b := fun e => h e.symm
      have hfirst : (find? (name b) (a :: xs).reverse).getD b = (find? (name b) xs.reverse).getD b := by
        rw [find?_reverse_cons, if_neg h', Option.or_none]
      have hrest : (a :: xs).filter (fun c => name c ≠ name b) = a :: xs.filter fun c => name c ≠ name b := by
        simp [h']
      rw [put_cons_of_ne h, ih, hfirst, hrest]
      rfl

theorem name_getD_find? (b : α) : name ((find? (name b) xs).getD b) = name b := by
  cases h : find? (name b) xs with
  | none => rfl
  | some c => exact name_of_find? h

theorem putAll_putAll_nil (xs : List α) : putAll xs (putAll xs []) = putAll xs [] := by
  match xs with
  | [] => rfl
  | a :: xs =>
    -- what is left when all of the first name are taken out is shorter
    have ih := putAll_putAll_nil (xs.filter fun c => name c ≠ name a)
    have hnil : putAll (a :: xs) [] =
        (find? (name a) xs.reverse).getD a :: putAll (xs.filter fun c => name c ≠ name a) [] :=
      putAll_cons xs a []
    have hname : name ((find? (name a) xs.reverse).getD a) = name a := name_getD_find? a
    have hfirst : (find? (name a) (a :: xs).reverse).getD ((find? (name a) xs.reverse).getD a) =
        (find? (name a) xs.reverse).getD a := by
      rw [find?_reverse_cons, if_pos rfl]
      cases find? (name a) xs.reverse <;> rfl
    have hrest : (a :: xs).filter (fun c => name c ≠ name a) = xs.filter fun c => name c ≠ name a := by
      simp
    rw [hnil, putAll_cons, hname, hfirst, hrest, ih]
termination_by xs.length
decreasing_by exact Nat.lt_succ_of_le (List.length_filter_le _ _)

/-- **A change made twice is a change made once**, also if it mentions a name more than once. -/
theorem putAll_putAll (xs things : List α) : putAll xs (putAll xs things) = putAll xs things := by
  induction things generalizing xs with
  | nil => exact putAll_putAll_nil xs
  | cons b things ih =>
    have hname : name ((find? (name b) xs.reverse).getD b) = name b := name_getD_find? b
    have hfirst : (find? (name b) xs.reverse).getD ((find? (name b) xs.reverse).getD b) =
        (find? (name b) xs.reverse).getD b := by
      cases find? (name b) xs.reverse <;> rfl
    rw [putAll_cons, putAll_cons, hname, hfirst, ih]

/-! ### Making sure of a name -/

theorem put_append (h : name a ∈ names things) : put a (things ++ later) = put a things ++ later := by
  induction things with
  | nil => simp [names] at h
  | cons b things ih =>
    by_cases hb : name b = name a
    · rw [List.cons_append, put_cons_of_eq hb, put_cons_of_eq hb, List.cons_append]
    · have h : name a ∈ names things := by
        simpa [names, Ne.symm hb] using h
      rw [List.cons_append, put_cons_of_ne hb, put_cons_of_ne hb, List.cons_append, ih h]

theorem putAll_append_things (h : ∀ a ∈ xs, name a ∈ names things) :
    putAll xs (things ++ later) = putAll xs things ++ later := by
  induction xs generalizing things with
  | nil => rfl
  | cons a xs ih =>
    have ha : name a ∈ names things := h a (by simp)
    show putAll xs (put a (things ++ later)) = putAll xs (put a things) ++ later
    rw [put_append ha]
    refine ih fun b hb => (names_prefix_put a things).subset (h b (by simp [hb]))

theorem mem_names_putAll (h : a ∈ xs) : name a ∈ names (putAll xs things) := by
  obtain ⟨b, hb⟩ := exists_find?_putAll (List.mem_map_of_mem (f := name) h)
  rw [mem_names_iff, hb things]
  rfl

theorem ensure_of_mem (h : n ∈ names things) : ensure n things = things := by
  induction things with
  | nil => simp [names] at h
  | cons b things ih =>
    by_cases hb : name b = n
    · have hget : get n (b :: things) = b := by
        rw [get_cons, if_pos hb]
      rw [ensure, hget, put_cons_of_eq rfl]
    · have h : n ∈ names things := by
        simpa [names, Ne.symm hb] using h
      have hget : get n (b :: things) = get n things := by
        rw [get_cons, if_neg hb]
      rw [ensure, hget, put_cons_of_ne (by rwa [name_get])]
      exact congrArg (b :: ·) (ih h)

theorem ensure_of_notMem (h : n ∉ names things) : ensure n things = things ++ [fresh n] := by
  have hget : get n things = fresh n := by
    have hnone : find? n things = none := by
      rwa [mem_names_iff, Option.not_isSome_iff_eq_none] at h
    rw [get, hnone]
    rfl
  rw [ensure, hget, put_of_notMem (by rwa [name_fresh])]

theorem ensure_ensure (n : String) (things : List α) : ensure n (ensure n things) = ensure n things := by
  apply ensure_of_mem
  rw [names_ensure]
  split
  · assumption
  · simp

/-- A change that makes sure of a name at its end is made once, too, when it is made twice. -/
theorem ensure_putAll_again (xs things : List α) (n : String) :
    ensure n (putAll xs (ensure n (putAll xs things))) = ensure n (putAll xs things) := by
  by_cases h : n ∈ names (putAll xs things)
  · rw [ensure_of_mem h, putAll_putAll, ensure_of_mem h]
  · have hlater : putAll xs (putAll xs things ++ [fresh n]) = putAll xs things ++ [fresh n] := by
      rw [putAll_append_things fun a ha => mem_names_putAll ha, putAll_putAll]
    rw [ensure_of_notMem h, hlater, ← ensure_of_notMem h, ensure_ensure]

/-! ### Collections in order -/

theorem mem_of_mem_putInOrder (h : b ∈ putInOrder a things) : b = a ∨ b ∈ things := by
  induction things with
  | nil => exact .inl (by simpa [putInOrder] using h)
  | cons c things ih =>
    unfold putInOrder at h
    split at h
    · rcases List.mem_cons.1 h with rfl | h
      · exact .inl rfl
      · exact .inr (List.mem_cons_of_mem _ h)
    · split at h
      · exact List.mem_cons.1 h
      · rcases List.mem_cons.1 h with rfl | h
        · exact .inr List.mem_cons_self
        · exact (ih h).imp_right (List.mem_cons_of_mem _)

/-- The later of two things of one name stays. -/
theorem putInOrder_putInOrder (h : name b = name a) (things : List α) :
    putInOrder b (putInOrder a things) = putInOrder b things := by
  induction things with
  | nil => simp [putInOrder, h]
  | cons c things ih =>
    by_cases hc : name c = name a
    · simp [putInOrder, hc, h]
    · by_cases hlt : name a < name c
      · simp [putInOrder, hc, h, hlt]
      · simp [putInOrder, hc, h, hlt, ih]

/-- In a collection without a name twice, a thing is found under its own name. -/
theorem find?_eq_some_iff (h : (names things).Nodup) : find? n things = some a ↔ a ∈ things ∧ name a = n := by
  constructor
  · intro hf
    exact ⟨List.mem_of_find?_eq_some hf, name_of_find? hf⟩
  · rintro ⟨ha, rfl⟩
    obtain ⟨b, hb⟩ := Option.isSome_iff_exists.1 (mem_names_iff.1 (List.mem_map_of_mem (f := name) ha))
    have hba : b = a := List.inj_on_of_nodup_map h (List.mem_of_find?_eq_some hb) ha (name_of_find? hb)
    rw [hb, hba]

theorem nodup_names_of_pairwise (h : (names things).Pairwise (· < ·)) : (names things).Nodup := by
  refine h.imp fun {a b} hlt hab => ?_
  rw [hab] at hlt
  exact String.lt_irrefl b hlt

/-- A collection in increasing order of names is told by what can be found in it. -/
theorem eq_of_find?_eq (hxs : (names xs).Pairwise (· < ·)) (hthings : (names things).Pairwise (· < ·))
    (h : ∀ n, find? n xs = find? n things) : xs = things := by
  have hx := nodup_names_of_pairwise hxs
  have ht := nodup_names_of_pairwise hthings
  have hmem (a : α) : a ∈ xs ↔ a ∈ things := by
    have hfind := (find?_eq_some_iff (n := name a) (a := a) hx).symm
    rw [h, find?_eq_some_iff ht] at hfind
    simpa using hfind
  have hperm : xs.Perm things := (List.perm_ext_iff_of_nodup (.of_map _ hx) (.of_map _ ht)).2 hmem
  have hasymm : ∀ a b : α, a ∈ xs → b ∈ things → name a < name b → name b < name a → a = b :=
    fun a b _ _ hab hba => absurd (String.lt_trans hab hba) (String.lt_irrefl _)
  exact hperm.eq_of_pairwise hasymm (List.pairwise_map.1 hxs) (List.pairwise_map.1 hthings)

/-! ### Collections that are alike -/

section Alike

variable {R : α → α → Prop} {xs' things' : List α}

/-- Alike things are put in the same places of alike collections. -/
theorem forall₂_put (hR : ∀ a b, R a b → name a = name b) (hab : R a b) (h : List.Forall₂ R things things') :
    List.Forall₂ R (put a things) (put b things') := by
  induction h with
  | nil => exact .cons hab .nil
  | cons hcd h ih =>
    unfold put
    rw [hR _ _ hcd, hR _ _ hab]
    split
    · exact .cons hab h
    · exact .cons hcd ih

theorem forall₂_putAll (hR : ∀ a b, R a b → name a = name b) (hxs : List.Forall₂ R xs xs')
    (h : List.Forall₂ R things things') : List.Forall₂ R (putAll xs things) (putAll xs' things') := by
  induction hxs generalizing things things' with
  | nil => exact h
  | cons hab _ ih => exact ih (forall₂_put hR hab h)

end Alike

end DdlCatalog.Named
