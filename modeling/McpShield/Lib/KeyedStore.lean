import Mathlib.Data.List.AList
import Mathlib.Data.List.Induction
import McpShield.Lib.Machine

/-!
# Stores of entries that name their own key

A store keeps at most one entry under a key, and the key is read off the entry, so writing an entry
replaces the one under its key.  `select` lists the entries a predicate admits.  Entries that the
predicate does not admit can only take admitted ones away, and `select_putAll_perm_iff` says which
writes do.
-/

namespace KeyedStore

variable {K E : Type} [DecidableEq K]

/-- The entries, in iteration order. -/
def values (m : AList fun _ : K => E) : List E := m.entries.map Sigma.snd

/-- Write an entry under its key. -/
def put (key : E → K) (m : AList fun _ : K => E) (e : E) : AList fun _ : K => E :=
  m.insert (key e) e

/-- Write a list of entries in order. -/
def putAll (key : E → K) (m : AList fun _ : K => E) (es : List E) : AList fun _ : K => E :=
  es.foldl (put key) m

/-- The entries that `P` admits. -/
def select (P : E → Bool) (m : AList fun _ : K => E) : List E := (values m).filter P

/-- Every entry stands under its own key. -/
def Keyed (key : E → K) (m : AList fun _ : K => E) : Prop := ∀ x ∈ m.entries, key x.2 = x.1

variable {key : E → K} {m : AList fun _ : K => E} {P : E → Bool}

omit [DecidableEq K] in
theorem keyed_empty : Keyed key (∅ : AList fun _ : K => E) := by simp [Keyed]

theorem Keyed.put (h : Keyed key m) (e : E) : Keyed key (put key m e) := by
  intro x hx
  rw [KeyedStore.put, AList.entries_insert, List.mem_cons] at hx
  rcases hx with rfl | hx
  · rfl
  · exact h x ((List.kerase_sublist _ _).subset hx)

theorem Keyed.putAll (h : Keyed key m) (es : List E) : Keyed key (putAll key m es) := by
  induction es generalizing m with
  | nil => exact h
  | cons e es ih => exact ih (h.put e)

/-- If every operation of a machine writes what `f` reads off it, a run writes what `f` reads off
the run. -/
theorem run_eq_putAll {S Op Out : Type} {M : Machine S Op Out} {store : S → AList fun _ : K => E}
    {f : Op → Option E}
    (hstep : ∀ s op, store (M.step s op).2 = KeyedStore.putAll key (store s) (f op).toList)
    (s : S) (ops : List Op) :
    store (M.run s ops) = KeyedStore.putAll key (store s) (ops.filterMap f) := by
  induction ops generalizing s with
  | nil => rfl
  | cons op ops ih =>
    rw [Machine.run_cons, ih, hstep]
    cases hop : f op with
    | none => rw [List.filterMap_cons_none hop]; rfl
    | some e => rw [List.filterMap_cons_some hop]; rfl

/-- Erasing a key from entries without duplicate keys keeps exactly the entries under other keys. -/
theorem kerase_eq_filter (k : K) :
    ∀ {l : List (Σ _ : K, E)}, l.NodupKeys → l.kerase k = l.filter fun x => x.1 ≠ k
  | [], _ => rfl
  | ⟨k', e⟩ :: l, h => by
      have hl : l.NodupKeys := (List.nodupKeys_cons.mp h).2
      by_cases hk : k = k'
      · subst hk
        have hnot : k ∉ l.keys := (List.nodupKeys_cons.mp h).1
        have hkeep : ∀ x ∈ l, x.1 ≠ k := fun x hx hxk => hnot (hxk ▸ List.mem_keys_of_mem hx)
        have herase : List.kerase k (⟨k, e⟩ :: l) = l := List.kerase_cons_eq rfl
        rw [herase, List.filter_cons_of_neg (by simp)]
        exact (List.filter_eq_self.mpr fun x hx => by simpa using hkeep x hx).symm
      · have herase : List.kerase k (⟨k', e⟩ :: l) = ⟨k', e⟩ :: l.kerase k := List.kerase_cons_ne hk
        rw [herase, List.filter_cons_of_pos (by simpa using Ne.symm hk), kerase_eq_filter k hl]

theorem values_put (h : Keyed key m) (e : E) :
    values (put key m e) = e :: (values m).filter fun x => key x ≠ key e := by
  have herase : m.entries.kerase (key e) = m.entries.filter fun x => key x.2 ≠ key e := by
    rw [kerase_eq_filter _ m.nodupKeys]
    exact List.filter_congr fun x hx => by rw [h x hx]
  rw [values, put, AList.entries_insert, List.map_cons, herase, values, List.filter_map]
  rfl

/-- What is left after an erasure was there before, under another key. -/
theorem lookup_of_erase {k gone : K} {e : E} (h : (m.erase gone).lookup k = some e) :
    k ≠ gone ∧ m.lookup k = some e := by
  have hne : k ≠ gone := by
    rintro rfl
    have hnone : (m.erase k).lookup k = none := AList.lookup_erase _ _
    cases hnone.symm.trans h
  exact ⟨hne, by rwa [AList.lookup_erase_ne hne] at h⟩

/-- A write of an entry that is not admitted takes away the admitted entry under its key. -/
theorem select_put (h : Keyed key m) {e : E} (he : P e = false) :
    select P (put key m e) = (select P m).filter fun x => key x ≠ key e := by
  rw [select, values_put h, List.filter_cons_of_neg (by simp [he]), select, List.filter_comm]

theorem select_putAll (h : Keyed key m) {es : List E} (hes : ∀ e ∈ es, P e = false) :
    select P (putAll key m es) = (select P m).filter fun x => ∀ e ∈ es, key x ≠ key e := by
  induction es generalizing m with
  | nil => simp [putAll]
  | cons e es ih =>
    have hstep := ih (h.put e) fun e' he' => hes e' (by simp [he'])
    rw [putAll, List.foldl_cons, ← putAll, hstep, select_put h (hes e (by simp)),
      List.filter_filter]
    exact List.filter_congr fun x _ => by simp [Bool.and_comm]

/-- Writes of entries that are not admitted leave the admitted ones as they are exactly when none
of them is written under the key of an admitted entry. -/
theorem select_putAll_perm_iff (h : Keyed key m) {es : List E} (hes : ∀ e ∈ es, P e = false) :
    (select P (putAll key m es)).Perm (select P m) ↔
      ∀ e ∈ es, ∀ x ∈ select P m, key x ≠ key e := by
  rw [select_putAll h hes]
  constructor
  · intro hperm
    have hkept := List.length_filter_eq_length_iff.mp hperm.length_eq
    intro e he x hx
    have hall : ∀ e ∈ es, key x ≠ key e := by simpa using hkept x hx
    exact hall e he
  · intro hkeys
    rw [List.filter_eq_self.mpr fun x hx => by simpa using fun e he => hkeys e he x hx]

/-- The same for the entries that a list of operations writes. -/
theorem select_filterMap_perm_iff {Op : Type} (h : Keyed key m) {f : Op → Option E} {ops : List Op}
    (hops : ∀ op ∈ ops, ∀ e, f op = some e → P e = false) :
    (select P (putAll key m (ops.filterMap f))).Perm (select P m) ↔
      ∀ op ∈ ops, ∀ e, f op = some e → ∀ x ∈ select P m, key x ≠ key e := by
  have hes : ∀ e ∈ ops.filterMap f, P e = false := by
    intro e he
    obtain ⟨op, hop, hfe⟩ := List.mem_filterMap.mp he
    exact hops op hop e hfe
  rw [select_putAll_perm_iff h hes]
  simp only [List.mem_filterMap, forall_exists_index, and_imp]
  exact ⟨fun hkeys op hop e hfe => hkeys e op hop hfe, fun hkeys e op hop hfe => hkeys op hop e hfe⟩

/-! ## Lookups -/

section Lookups

variable {e : E} {es : List E} {k : K}

theorem Keyed.key_eq (h : Keyed key m) (hk : m.lookup k = some e) : key e = k :=
  h _ (AList.mem_lookup_iff.mp hk)

theorem mem_values_iff (h : Keyed key m) : e ∈ values m ↔ m.lookup (key e) = some e := by
  constructor
  · intro he
    obtain ⟨entry, hentry, rfl⟩ := List.mem_map.mp he
    rw [h entry hentry]
    exact AList.mem_lookup_iff.mpr hentry
  · exact fun hk => List.mem_map.mpr ⟨_, AList.mem_lookup_iff.mp hk, rfl⟩

theorem mem_select_iff (h : Keyed key m) :
    e ∈ select P m ↔ m.lookup (key e) = some e ∧ P e = true := by
  rw [select, List.mem_filter, mem_values_iff h]

omit [DecidableEq K] in
theorem nodup_map_key (h : Keyed key m) : ((select P m).map key).Nodup := by
  have hkeys : (values m).map key = m.keys := by
    rw [values, List.map_map]
    exact List.map_congr_left h
  have hnodup : ((values m).map key).Nodup := hkeys ▸ m.nodupKeys
  exact hnodup.sublist (List.filter_sublist.map key)

theorem lookup_put (m : AList fun _ : K => E) (e : E) (k : K) :
    (put key m e).lookup k = if k = key e then some e else m.lookup k := by
  split
  · next heq => rw [heq, put, AList.lookup_insert]
  · next hne => rw [put, AList.lookup_insert_ne hne]

theorem lookup_putAll_of_ne (hes : ∀ e ∈ es, key e ≠ k) :
    (putAll key m es).lookup k = m.lookup k := by
  induction es generalizing m with
  | nil => rfl
  | cons first es ih =>
    obtain ⟨hfirst, hrest⟩ := List.forall_mem_cons.mp hes
    exact (ih hrest).trans ((lookup_put m first k).trans (if_neg hfirst.symm))

/-- Of entries with different keys, each is found after they have been written. -/
theorem lookup_putAll_of_mem (hes : (es.map key).Nodup) (he : e ∈ es) :
    (putAll key m es).lookup (key e) = some e := by
  induction es generalizing m with
  | nil => cases he
  | cons first es ih =>
    obtain ⟨hfirst, hrest⟩ := List.nodup_cons.mp hes
    rcases List.mem_cons.mp he with rfl | he
    · have hne : ∀ e' ∈ es, key e' ≠ key e := fun e' he' heq =>
        hfirst (heq ▸ List.mem_map_of_mem he')
      exact (lookup_putAll_of_ne hne).trans ((lookup_put m e _).trans (if_pos rfl))
    · exact ih hrest he

theorem lookup_putAll_concat (m : AList fun _ : K => E) (es : List E) (e : E) :
    (putAll key m (es ++ [e])).lookup (key e) = some e := by
  rw [putAll, List.foldl_append]
  exact (lookup_put _ e _).trans (if_pos rfl)

/-- If the entries under each key are one, each is found after they have been written. -/
theorem lookup_putAll_of_agree (hes : ∀ e ∈ es, ∀ e' ∈ es, key e = key e' → e = e') (he : e ∈ es) :
    (putAll key m es).lookup (key e) = some e := by
  induction es using List.reverseRecOn with
  | nil => cases he
  | append_singleton es last ih =>
    by_cases hkey : key e = key last
    · obtain rfl := hes e he last (by simp) hkey
      exact lookup_putAll_concat m es e
    · have hold : e ∈ es := by
        rcases List.mem_append.mp he with he | he
        · exact he
        · exact absurd (congrArg key (List.mem_singleton.mp he)) hkey
      rw [putAll, List.foldl_append]
      refine (lookup_put _ last _).trans ((if_neg hkey).trans (ih (fun e he e' he' => ?_) hold))
      exact hes e (List.mem_append_left _ he) e' (List.mem_append_left _ he')

/-- The operations write the same entries in any order exactly when those they write under each key
are one. -/
theorem putAll_order_free_iff {Op : Type} {f : Op → Option E} {ops : List Op} :
    (∀ ops' : List Op, ops'.Perm ops → ∀ k, (putAll key m (ops'.filterMap f)).lookup k =
        (putAll key m (ops.filterMap f)).lookup k) ↔
      ∀ e ∈ ops.filterMap f, ∀ e' ∈ ops.filterMap f, key e = key e' → e = e' := by
  constructor
  · intro h
    -- an entry that is written last is found
    have hlast : ∀ e ∈ ops.filterMap f,
        (putAll key m (ops.filterMap f)).lookup (key e) = some e := by
      intro e he
      obtain ⟨op, hop, hfe⟩ := List.mem_filterMap.mp he
      obtain ⟨before, after, rfl⟩ := List.append_of_mem hop
      have hperm : (before ++ after ++ [op]).Perm (before ++ op :: after) := by
        rw [List.append_assoc]
        exact (List.perm_append_singleton op after).append_left before
      rw [← h _ hperm, List.filterMap_append, List.filterMap_cons_some hfe, List.filterMap_nil]
      exact lookup_putAll_concat m _ e
    intro e he e' he' hkey
    have hfound := hlast e he
    rw [hkey, hlast e' he'] at hfound
    exact (Option.some.inj hfound).symm
  · intro h ops' hperm k
    have hmem : ∀ e, e ∈ ops'.filterMap f ↔ e ∈ ops.filterMap f :=
      fun e => (hperm.filterMap f).mem_iff
    by_cases hk : ∃ e ∈ ops.filterMap f, key e = k
    · obtain ⟨e, he, rfl⟩ := hk
      rw [lookup_putAll_of_agree h he, lookup_putAll_of_agree (fun e he e' he' =>
        h e ((hmem e).mp he) e' ((hmem e').mp he')) ((hmem e).mpr he)]
    · have hne : ∀ e ∈ ops.filterMap f, key e ≠ k := fun e he heq => hk ⟨e, he, heq⟩
      rw [lookup_putAll_of_ne hne, lookup_putAll_of_ne fun e he => hne e ((hmem e).mp he)]

/-- A store of the admitted entries of another one. -/
theorem lookup_putAll_select (h : Keyed key m) (k : K) :
    (putAll key ∅ (select P m)).lookup k = (m.lookup k).filter P := by
  cases hk : (m.lookup k).filter P with
  | some e =>
    obtain ⟨hlookup, hP⟩ := Option.filter_eq_some_iff.mp hk
    obtain rfl := h.key_eq hlookup
    exact lookup_putAll_of_mem (nodup_map_key h) ((mem_select_iff h).mpr ⟨hlookup, hP⟩)
  | none =>
    refine lookup_putAll_of_ne fun e he heq => ?_
    obtain ⟨hlookup, hP⟩ := (mem_select_iff h).mp he
    rw [← heq, hlookup, Option.filter_some, if_pos hP] at hk
    cases hk

end Lookups

/-! ## What is seen of the entries -/

section Views

variable {V : Type} {f : E → V} {g : V → K} {m' : AList fun _ : K => E}

theorem mem_map_select_iff (h : Keyed key m) (hg : ∀ e, g (f e) = key e) {v : V} :
    v ∈ (select P m).map f ↔ ((m.lookup (g v)).filter P).map f = some v := by
  simp only [List.mem_map, mem_select_iff h, Option.map_eq_some_iff, Option.filter_eq_some_iff]
  constructor
  · rintro ⟨e, ⟨hlookup, hP⟩, rfl⟩
    exact ⟨e, ⟨hg e ▸ hlookup, hP⟩, rfl⟩
  · rintro ⟨e, ⟨hlookup, hP⟩, rfl⟩
    exact ⟨e, ⟨hg e ▸ hlookup, hP⟩, rfl⟩

/-- Two stores show the same of their admitted entries exactly when they show it key by key, if the
key is part of what they show. -/
theorem map_select_perm_iff (h : Keyed key m) (h' : Keyed key m') (hg : ∀ e, g (f e) = key e) :
    ((select P m).map f).Perm ((select P m').map f) ↔
      ∀ k, ((m.lookup k).filter P).map f = ((m'.lookup k).filter P).map f := by
  have hnodup : ∀ {m : AList fun _ : K => E}, Keyed key m → ((select P m).map f).Nodup := by
    intro m hm
    refine List.Nodup.of_map g ?_
    have hmap : ((select P m).map f).map g = (select P m).map key :=
      List.map_map.trans (List.map_congr_left fun e _ => hg e)
    exact hmap ▸ nodup_map_key hm
  have hkey : ∀ {m : AList fun _ : K => E} {k v}, Keyed key m →
      ((m.lookup k).filter P).map f = some v → g v = k := by
    intro m k v hm hv
    obtain ⟨e, he, rfl⟩ := Option.map_eq_some_iff.mp hv
    exact (hg e).trans (hm.key_eq (Option.filter_eq_some_iff.mp he).1)
  rw [List.perm_ext_iff_of_nodup (hnodup h) (hnodup h')]
  simp only [mem_map_select_iff h hg, mem_map_select_iff h' hg]
  constructor
  · intro hsame k
    ext v
    constructor
    · intro hv
      obtain rfl := hkey h hv
      exact (hsame v).mp hv
    · intro hv
      obtain rfl := hkey h' hv
      exact (hsame v).mpr hv
  · exact fun hsame v => by rw [hsame]

end Views

end KeyedStore
