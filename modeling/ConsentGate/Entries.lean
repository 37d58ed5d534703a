/-!
# Lists of values

What looking up a name in a list of named values finds, where each name stands once, and what is
read from a list item by item.

Results:

* `lookup_of_mem`, `lookup_of_not_mem`: a name that is there has its value, and any other none.
* `lookup_eq_of_perm`: the order of the names does not matter.
* `lookup_map`: changing the values changes what is found.
* `mapM_map_of_readsBack`: a list is read back from what is written for its items.
* `lookup_of_mapM`, `exists_mapM`: what reading the value of each name finds under a name.
-/

namespace ConsentGate

variable {α : Type} {entries : List (String × α)}

/-- What stands once stands nowhere in front of its place. -/
theorem not_mem_of_nodup {β : Type} {b : β} {before after : List β}
    (h : (before ++ b :: after).Nodup) : b ∉ before := fun hmem =>
  (List.nodup_append.1 h).2.2 _ hmem _ List.mem_cons_self rfl

/-- Where names stand once, an entry stands in front, or behind an entry with another name. -/
theorem eq_or_mem_of_nodup {first entry : String × α}
    (h : ((first :: entries).map Prod.fst).Nodup) (hentry : entry ∈ first :: entries) :
    (entry = first ∧ entry.1 ∉ entries.map Prod.fst) ∨
      ((entry.1 == first.1) = false ∧ (entries.map Prod.fst).Nodup ∧ entry ∈ entries) := by
  rw [List.map_cons, List.nodup_cons] at h
  rcases List.mem_cons.1 hentry with rfl | hentry
  · exact .inl ⟨rfl, h.1⟩
  · exact .inr ⟨beq_false_of_ne fun heq => h.1 (heq ▸ List.mem_map_of_mem hentry), h.2, hentry⟩

/-- A name that stands once has its value. -/
theorem lookup_of_mem (h : (entries.map Prod.fst).Nodup) {entry : String × α}
    (hentry : entry ∈ entries) : entries.lookup entry.1 = some entry.2 := by
  induction entries with
  | nil => cases hentry
  | cons first entries ih =>
    rcases eq_or_mem_of_nodup h hentry with ⟨rfl, -⟩ | ⟨hne, hnames, hentry⟩
    · exact List.lookup_cons_self
    · rw [List.lookup_cons, hne]
      exact ih hnames hentry

/-- A name that does not stand there has no value. -/
theorem lookup_of_not_mem {name : String} (h : name ∉ entries.map Prod.fst) :
    entries.lookup name = none := by
  induction entries with
  | nil => rfl
  | cons first entries ih =>
    rw [List.map_cons, List.mem_cons, not_or] at h
    rw [List.lookup_cons, beq_false_of_ne h.1]
    exact ih h.2

section Order

variable {κ : Type} [BEq κ] [LawfulBEq κ] {entries entries' : List (κ × α)}

/-- Where a key stands at most once, the order of the entries does not matter for it. -/
theorem lookup_eq_of_perm_of_count (hperm : entries.Perm entries') {key : κ}
    (h : (entries.map Prod.fst).count key ≤ 1) : entries.lookup key = entries'.lookup key := by
  induction hperm with
  | nil => rfl
  | cons entry _ ih =>
    rw [List.map_cons, List.count_cons] at h
    rw [List.lookup_cons, List.lookup_cons, ih (by omega)]
  | swap first second rest =>
    simp only [List.map_cons, List.count_cons] at h
    rw [List.lookup_cons, List.lookup_cons, List.lookup_cons, List.lookup_cons]
    cases hfirst : key == first.1 with
    | false => rfl
    | true =>
      have hkey : (first.1 == key) = true := by rw [BEq.comm, hfirst]
      cases hsecond : key == second.1 with
      | false => rfl
      | true =>
        have hkey' : (second.1 == key) = true := by rw [BEq.comm, hsecond]
        rw [hkey, hkey', if_pos rfl] at h
        omega
  | trans hperm _ ih ih' => rw [ih h, ih' ((hperm.map Prod.fst).count_eq key ▸ h)]

/-- Where keys stand once, their order does not matter. -/
theorem lookup_eq_of_perm (hperm : entries.Perm entries') (h : (entries.map Prod.fst).Nodup)
    {key : κ} : entries.lookup key = entries'.lookup key :=
  lookup_eq_of_perm_of_count hperm (List.nodup_iff_count.1 h key)

end Order

/-- Changing the values changes what is found. -/
theorem lookup_map {β : Type} (f : α → β) (name : String) :
    (entries.map fun entry => (entry.1, f entry.2)).lookup name = (entries.lookup name).map f := by
  induction entries with
  | nil => rfl
  | cons entry entries ih =>
    rw [List.map_cons, List.lookup_cons, List.lookup_cons, ih]
    split <;> rfl

/-- A list is read back from what is written for its items. -/
theorem mapM_map_of_readsBack {β : Type} {read? : β → Option α} {write : α → β}
    (h : ∀ a, read? (write a) = some a) (as : List α) : (as.map write).mapM read? = some as := by
  have hread : read? ∘ write = fun a => pure a := funext h
  rw [List.mapM_map, hread, List.mapM_pure, List.map_id']
  rfl

section Values

variable {β : Type} {read? : α → Option β}

/-- Reading the value of each name keeps the names, and reads what stands under each of them. -/
theorem lookup_of_mapM {values : List (String × β)}
    (h : (entries.mapM fun entry => (read? entry.2).map fun v => (entry.1, v)) = some values) :
    values.map Prod.fst = entries.map Prod.fst ∧
      ∀ name, (entries.lookup name).map read? = (values.lookup name).map some := by
  induction entries generalizing values with
  | nil =>
    obtain rfl := Option.some.inj h
    exact ⟨rfl, fun _ => rfl⟩
  | cons entry entries ih =>
    rw [List.mapM_cons] at h
    obtain ⟨first, hfirst, h⟩ := Option.bind_eq_some_iff.1 h
    obtain ⟨later, hlater, h⟩ := Option.bind_eq_some_iff.1 h
    obtain ⟨v, hv, rfl⟩ := Option.map_eq_some_iff.1 hfirst
    obtain rfl := Option.some.inj h
    obtain ⟨hnames, hlookup⟩ := ih hlater
    refine ⟨?_, fun name => ?_⟩
    · rw [List.map_cons, List.map_cons, hnames]
    · rw [List.lookup_cons, List.lookup_cons]
      cases hname : name == entry.1 with
      | true => rw [Option.map_some, Option.map_some, hv]
      | false => exact hlookup name

/-- Values that can all be read are read together. -/
theorem exists_mapM (h : ∀ entry ∈ entries, ∃ v, read? entry.2 = some v) :
    ∃ values, (entries.mapM fun entry => (read? entry.2).map fun v => (entry.1, v)) =
      some values := by
  induction entries with
  | nil => exact ⟨[], rfl⟩
  | cons entry entries ih =>
    obtain ⟨v, hv⟩ := h entry List.mem_cons_self
    obtain ⟨values, hvalues⟩ := ih fun e he => h e (List.mem_cons_of_mem _ he)
    refine ⟨(entry.1, v) :: values, ?_⟩
    rw [List.mapM_cons, hv, hvalues]
    rfl

end Values

end ConsentGate
