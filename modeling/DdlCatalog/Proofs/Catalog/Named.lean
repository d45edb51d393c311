import DdlCatalog.Catalog.Named
import Mathlib.Data.List.Induction
import Mathlib.Tactic.Common

/-!
# Many things put into a collection

* `putAll xs things` — `things` with every member of `xs` put into it, in order;
* `putAll_nil` : from nothing, each name has the place of its first mention and the thing of its last, `lastOfEach`;
* `putAll_of_nodup` : things with different names stay as they are.
-/

namespace DdlCatalog.Named

variable {α : Type} [Named α]

/-- The collection with several things put into it, one after the other. -/
def putAll (xs things : List α) : List α :=
  xs.foldl (fun things a => put a things) things

/-- The names of a list of things, each at its first place and with the thing that has it last. -/
def lastOfEach (xs : List α) : List α :=
  (names xs).eraseDups.map fun n => get n xs.reverse

variable {a : α} {n : String} {xs ys things : List α} {ns : List String}

theorem putAll_append : putAll (xs ++ ys) things = putAll ys (putAll xs things) := by
  simp [putAll]

theorem putAll_concat : putAll (xs ++ [a]) things = put a (putAll xs things) := by
  simp [putAll]

@[simp] theorem names_nil : names ([] : List α) = [] := rfl

theorem names_append : names (xs ++ ys) = names xs ++ names ys := by
  simp [names]

theorem names_singleton : names [a] = [name a] := rfl

/-! ### Names, each once -/

theorem eraseDups_concat (ns : List String) (n : String) :
    (ns ++ [n]).eraseDups = if n ∈ ns then ns.eraseDups else ns.eraseDups ++ [n] := by
  rw [List.eraseDups_append]
  by_cases h : n ∈ ns <;> simp [List.removeAll, h, List.eraseDups_cons]

theorem nodup_eraseDups (ns : List String) : ns.eraseDups.Nodup := by
  induction ns using List.reverseRecOn with
  | nil => simp
  | append_singleton ns n ih =>
    rw [eraseDups_concat]
    split
    · exact ih
    next h =>
      refine List.nodup_append.2 ⟨ih, by simp, fun m hm k hk => ?_⟩
      rintro rfl
      obtain rfl : m = n := by simpa using hk
      exact h (List.mem_eraseDups.1 hm)

/-! ### Putting into a collection that is listed by name -/

theorem put_of_notMem (h : name a ∉ names things) : put a things = things ++ [a] := by
  induction things with
  | nil => rfl
  | cons b things ih =>
    simp only [names, List.map_cons, List.mem_cons, not_or] at h
    rw [put, if_neg fun e => h.1 e.symm, ih h.2]
    rfl

theorem put_map_of_mem {f : String → α} (hf : ∀ n ∈ ns, name (f n) = n) (hns : ns.Nodup) (ha : name a ∈ ns) :
    put a (ns.map f) = ns.map fun n => if n = name a then a else f n := by
  induction ns with
  | nil => simp at ha
  | cons m ns ih =>
    obtain ⟨hm, hns⟩ := List.nodup_cons.1 hns
    have hfm : name (f m) = m := hf m (by simp)
    rw [List.map_cons, List.map_cons, put, hfm]
    by_cases e : m = name a
    · have later : ∀ n ∈ ns, f n = if n = name a then a else f n := by
        intro n hn
        rw [if_neg]
        rintro rfl
        exact hm (e ▸ hn)
      rw [if_pos e, if_pos e, List.map_congr_left later]
    · rw [if_neg e, if_neg e]
      have ha : name a ∈ ns := (List.mem_cons.1 ha).resolve_left fun h => e h.symm
      rw [ih (fun n hn => hf n (by simp [hn])) hns ha]

theorem names_map_of_name {f : String → α} (hf : ∀ n ∈ ns, name (f n) = n) : names (ns.map f) = ns := by
  rw [names, List.map_map]
  calc ns.map (name ∘ f) = ns.map id := List.map_congr_left hf
    _ = ns := List.map_id _

/-! ### From nothing -/

theorem get_cons : get n (a :: things) = if name a = n then a else get n things := by
  unfold get find?
  by_cases h : name a = n <;> simp [h]

/-- **The first mention gives the place, the last one the thing.** -/
theorem putAll_nil (xs : List α) : putAll xs [] = lastOfEach xs := by
  induction xs using List.reverseRecOn with
  | nil => rfl
  | append_singleton xs a ih =>
    rw [putAll_concat, ih, lastOfEach, lastOfEach, names_append, names_singleton, eraseDups_concat, List.reverse_append]
    simp only [List.reverse_singleton, List.singleton_append, get_cons]
    have hname : ∀ n ∈ (names xs).eraseDups, name (get n xs.reverse) = n := fun n _ => name_get n _
    split
    next h =>
      rw [put_map_of_mem hname (nodup_eraseDups _) (List.mem_eraseDups.2 h)]
      simp only [eq_comm]
    next h =>
      have hnames := names_map_of_name hname
      rw [put_of_notMem (by rwa [hnames, List.mem_eraseDups]), List.map_append]
      congr 1
      · refine List.map_congr_left fun n hn => ?_
        rw [if_neg]
        rintro rfl
        exact h (List.mem_eraseDups.1 hn)
      · simp

theorem names_putAll_nil (xs : List α) : names (putAll xs []) = (names xs).eraseDups := by
  rw [putAll_nil, lastOfEach]
  exact names_map_of_name fun n _ => name_get n _

theorem nodup_names_putAll_nil (xs : List α) : (names (putAll xs [])).Nodup := by
  rw [names_putAll_nil]
  exact nodup_eraseDups _

/-- What is in the collection is the last thing of its name. -/
theorem eq_get_of_mem_putAll_nil (h : a ∈ putAll xs []) : a ∈ xs ∧ a = get (name a) xs.reverse := by
  rw [putAll_nil, lastOfEach, List.mem_map] at h
  obtain ⟨n, hn, rfl⟩ := h
  rw [name_get]
  refine ⟨?_, rfl⟩
  have hn : ∃ b ∈ xs.reverse, name b = n := by
    simpa [names, List.mem_eraseDups] using hn
  have hsome : (find? n xs.reverse).isSome := by
    rw [find?, List.find?_isSome]
    simpa using hn
  obtain ⟨b, hb⟩ := Option.isSome_iff_exists.1 hsome
  rw [get, hb]
  exact List.mem_reverse.1 (List.mem_of_find?_eq_some hb)

/-- Things with different names are put one behind the other. -/
theorem putAll_of_nodup (h : (names xs).Nodup) : putAll xs [] = xs := by
  induction xs using List.reverseRecOn with
  | nil => rfl
  | append_singleton xs a ih =>
    rw [names_append, names_singleton, List.nodup_append] at h
    obtain ⟨hxs, -, ha⟩ := h
    have ha : name a ∉ names xs := fun hm => ha _ hm _ (by simp) rfl
    rw [putAll_concat, ih hxs, put_of_notMem ha]

end DdlCatalog.Named
