import ConsentGate.Ordered.Set

/-!
# Ordered maps

A finite map over a linear order is held as its list of entries with strictly ascending keys. Each
map has one such list, so two maps that answer every look-up alike are equal.

Results:

* `OrderedMap.find?_insert`: writing a key changes the answer for that key only.
* `OrderedMap.ext`: a map is determined by its look-ups.
* `OrderedMap.find?_ofList_of_nodup`, `OrderedMap.ofList_entries`: collecting entries whose keys
  stand once, and so the entries of a map.
-/

namespace ConsentGate

/-- A finite map, listed by strictly ascending keys. -/
structure OrderedMap (κ ν : Type) [LT κ] where
  /-- The entries, smallest key first. -/
  entries : List (κ × ν)
  /-- Each key is below all later ones. -/
  ascending : entries.Pairwise (fun e f => e.1 < f.1)
  deriving DecidableEq

namespace OrderedMap

variable {κ ν : Type} [LT κ]

/-- The map without entries. -/
def empty : OrderedMap κ ν := ⟨[], .nil⟩

instance : EmptyCollection (OrderedMap κ ν) := ⟨empty⟩

instance : Inhabited (OrderedMap κ ν) := ⟨empty⟩

/-- The keys, smallest first. -/
def keys (m : OrderedMap κ ν) : List κ := m.entries.map Prod.fst

/-- The values, by ascending key. -/
def values (m : OrderedMap κ ν) : List ν := m.entries.map Prod.snd

/-- The number of entries. -/
def size (m : OrderedMap κ ν) : Nat := m.entries.length

/-- The value of a key in a list of entries: that of the first entry with the key. -/
def lookup [DecidableEq κ] (k : κ) : List (κ × ν) → Option ν
  | [] => none
  | e :: es => if e.1 = k then some e.2 else lookup k es

/-- The value of a key, if it has one. -/
def find? [DecidableEq κ] (m : OrderedMap κ ν) (k : κ) : Option ν := lookup k m.entries

@[simp] theorem find?_empty [DecidableEq κ] (k : κ) : (∅ : OrderedMap κ ν).find? k = none := rfl

theorem lookup_of_mem [DecidableEq κ] [Ascends κ] {k : κ} {v : ν} {es : List (κ × ν)}
    (h : es.Pairwise (fun e f => e.1 < f.1)) (hm : (k, v) ∈ es) : lookup k es = some v := by
  induction es with
  | nil => cases hm
  | cons e es ih =>
    rw [List.pairwise_cons] at h
    rcases List.mem_cons.1 hm with rfl | hm
    · simp [lookup]
    · have hk : e.1 ≠ k := fun heq =>
        Ascends.irrefl k (by simpa [heq] using h.1 _ hm)
      simp [lookup, hk, ih h.2 hm]

omit [LT κ] in
theorem mem_of_lookup [DecidableEq κ] {k : κ} {v : ν} {es : List (κ × ν)}
    (h : lookup k es = some v) : (k, v) ∈ es := by
  induction es with
  | nil => simp [lookup] at h
  | cons e es ih =>
    unfold lookup at h
    split at h
    · rename_i hk
      obtain rfl := Option.some.inj h
      subst hk
      exact List.mem_cons_self
    · exact List.mem_cons_of_mem _ (ih h)

/-- A look-up answers with `v` exactly when `(k, v)` is an entry. -/
theorem find?_eq_some_iff [DecidableEq κ] [Ascends κ] {m : OrderedMap κ ν} {k : κ} {v : ν} :
    m.find? k = some v ↔ (k, v) ∈ m.entries :=
  ⟨mem_of_lookup, lookup_of_mem m.ascending⟩

variable [DecidableLT κ]

/-- Entries by ascending key with `k` written to `v`; an earlier value of `k` is replaced. -/
def insertInto (k : κ) (v : ν) : List (κ × ν) → List (κ × ν)
  | [] => [(k, v)]
  | e :: es =>
    if k < e.1 then (k, v) :: e :: es
    else if e.1 < k then e :: insertInto k v es
    else (k, v) :: es

theorem fst_mem_insertInto {k : κ} {v : ν} {f : κ × ν} {es : List (κ × ν)}
    (h : f ∈ insertInto k v es) : f.1 = k ∨ f ∈ es := by
  induction es with
  | nil => simp [insertInto] at h; simp [h]
  | cons e es ih =>
    unfold insertInto at h
    split at h
    · rcases List.mem_cons.1 h with rfl | h
      · exact .inl rfl
      · exact .inr h
    · split at h
      · rcases List.mem_cons.1 h with rfl | h
        · exact .inr List.mem_cons_self
        · exact (ih h).imp id (List.mem_cons_of_mem _)
      · rcases List.mem_cons.1 h with rfl | h
        · exact .inl rfl
        · exact .inr (List.mem_cons_of_mem _ h)

variable [Ascends κ]

theorem pairwise_insertInto {k : κ} {v : ν} {es : List (κ × ν)}
    (h : es.Pairwise (fun e f => e.1 < f.1)) :
    (insertInto k v es).Pairwise (fun e f => e.1 < f.1) := by
  induction es with
  | nil => simp [insertInto]
  | cons e es ih =>
    rw [List.pairwise_cons] at h
    unfold insertInto
    split
    · rename_i hke
      refine List.pairwise_cons.2 ⟨fun f hf => ?_, List.pairwise_cons.2 h⟩
      rcases List.mem_cons.1 hf with rfl | hf
      · exact hke
      · exact Ascends.trans _ _ _ hke (h.1 f hf)
    · split
      · rename_i hek
        refine List.pairwise_cons.2 ⟨fun f hf => ?_, ih h.2⟩
        rcases fst_mem_insertInto hf with hf | hf
        · rw [hf]; exact hek
        · exact h.1 f hf
      · rename_i h1 h2
        refine List.pairwise_cons.2 ⟨fun f hf => ?_, h.2⟩
        rw [Ascends.eq_of_not_lt h1 h2]
        exact h.1 f hf

/-- The map with `k` written to `v`. -/
def insert (m : OrderedMap κ ν) (k : κ) (v : ν) : OrderedMap κ ν :=
  ⟨insertInto k v m.entries, pairwise_insertInto m.ascending⟩

/-- The map of a list of entries; of two entries with one key the later stays. -/
def ofList (es : List (κ × ν)) : OrderedMap κ ν := es.foldl (fun m e => m.insert e.1 e.2) ∅

theorem lookup_insertInto [DecidableEq κ] {k x : κ} {v : ν} {es : List (κ × ν)} :
    lookup x (insertInto k v es) = if k = x then some v else lookup x es := by
  induction es with
  | nil => simp [insertInto, lookup]
  | cons e es ih =>
    unfold insertInto
    split
    · simp only [lookup]
    · split
      · rename_i hke
        simp only [lookup, ih]
        by_cases hx : e.1 = x
        · have : k ≠ x := by rintro rfl; rw [hx] at hke; exact Ascends.irrefl _ hke
          simp [hx, this]
        · simp [hx]
      · rename_i h1 h2
        have : k = e.1 := Ascends.eq_of_not_lt h1 h2
        by_cases hx : k = x <;> simp [lookup, this ▸ hx, hx]

/-- Writing a key changes the answer for that key only. -/
@[simp] theorem find?_insert [DecidableEq κ] {m : OrderedMap κ ν} {k x : κ} {v : ν} :
    (m.insert k v).find? x = if k = x then some v else m.find? x :=
  lookup_insertInto

omit [DecidableLT κ] in
/-- A map is determined by its look-ups. -/
theorem ext [DecidableEq κ] {m n : OrderedMap κ ν} (h : ∀ k, m.find? k = n.find? k) : m = n := by
  have hmem : ∀ e, e ∈ m.entries ↔ e ∈ n.entries := fun ⟨k, v⟩ => by
    rw [← find?_eq_some_iff, ← find?_eq_some_iff, h]
  obtain ⟨l, hl⟩ := m
  obtain ⟨r, hr⟩ := n
  congr
  clear h
  simp only at hmem
  induction l generalizing r with
  | nil =>
    cases r with
    | nil => rfl
    | cons f fs => exact absurd ((hmem f).2 List.mem_cons_self) List.not_mem_nil
  | cons e es ih =>
    cases r with
    | nil => exact absurd ((hmem e).1 List.mem_cons_self) List.not_mem_nil
    | cons f fs =>
      rw [List.pairwise_cons] at hl hr
      have hef : e = f := by
        rcases List.mem_cons.1 ((hmem e).1 List.mem_cons_self) with h | he
        · exact h
        · rcases List.mem_cons.1 ((hmem f).2 List.mem_cons_self) with h | hf
          · exact h.symm
          · exact absurd (Ascends.trans _ _ _ (hl.1 f hf) (hr.1 e he)) (Ascends.irrefl e.1)
      subst hef
      congr 1
      refine ih hl.2 fs hr.2 fun x => ?_
      constructor
      · intro hx
        rcases List.mem_cons.1 ((hmem x).1 (List.mem_cons_of_mem _ hx)) with h | hx'
        · subst h; exact absurd (hl.1 x hx) (Ascends.irrefl x.1)
        · exact hx'
      · intro hx
        rcases List.mem_cons.1 ((hmem x).2 (List.mem_cons_of_mem _ hx)) with h | hx'
        · subst h; exact absurd (hr.1 x hx) (Ascends.irrefl x.1)
        · exact hx'

omit [DecidableLT κ] in
/-- Each key stands once. -/
theorem nodup_keys (m : OrderedMap κ ν) : m.keys.Nodup := by
  rw [keys, List.Nodup, List.pairwise_map]
  refine m.ascending.imp fun hlt heq => ?_
  rw [heq] at hlt
  exact Ascends.irrefl _ hlt

omit [LT κ] [DecidableLT κ] [Ascends κ] in
theorem lookup_of_not_mem [DecidableEq κ] {k : κ} {es : List (κ × ν)}
    (h : k ∉ es.map Prod.fst) : lookup k es = none := by
  induction es with
  | nil => rfl
  | cons e es ih =>
    rw [List.map_cons, List.mem_cons, not_or] at h
    rw [lookup, if_neg fun heq => h.1 heq.symm, ih h.2]

theorem find?_foldl_of_nodup [DecidableEq κ] {es : List (κ × ν)} (h : (es.map Prod.fst).Nodup)
    (m : OrderedMap κ ν) (k : κ) :
    (es.foldl (fun m e => m.insert e.1 e.2) m).find? k = (lookup k es).or (m.find? k) := by
  induction es generalizing m with
  | nil => rfl
  | cons e es ih =>
    rw [List.map_cons, List.nodup_cons] at h
    rw [List.foldl_cons, ih h.2, find?_insert, lookup]
    by_cases hk : e.1 = k
    · subst hk
      rw [lookup_of_not_mem h.1, if_pos rfl, if_pos rfl]
      rfl
    · rw [if_neg hk, if_neg hk]

omit [LT κ] [DecidableLT κ] [Ascends κ] in
theorem lookup_eq_lookup [DecidableEq κ] (k : κ) (es : List (κ × ν)) :
    lookup k es = es.lookup k := by
  induction es with
  | nil => rfl
  | cons e es ih =>
    rw [lookup, List.lookup_cons]
    by_cases hk : e.1 = k
    · rw [if_pos hk, hk, beq_self_eq_true]
    · have hne : (k == e.1) = false := beq_false_of_ne fun heq => hk heq.symm
      rw [if_neg hk, hne, ih]

/-- A map of entries whose keys stand once holds each of them. -/
theorem find?_ofList_of_nodup [DecidableEq κ] {es : List (κ × ν)} (h : (es.map Prod.fst).Nodup)
    (k : κ) : (ofList es).find? k = es.lookup k := by
  rw [ofList, find?_foldl_of_nodup h, find?_empty, Option.or_none, lookup_eq_lookup]

/-- Collecting the entries of a map gives the map. -/
theorem ofList_entries [DecidableEq κ] (m : OrderedMap κ ν) : ofList m.entries = m :=
  ext fun k => (find?_ofList_of_nodup m.nodup_keys k).trans (lookup_eq_lookup k m.entries).symm

end OrderedMap

end ConsentGate
