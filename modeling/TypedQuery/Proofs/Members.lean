import Mathlib.Data.List.Induction
import Mathlib.Data.List.Nodup
import TypedQuery.Members

/-!
# Reading members

What an object holds under a key does not depend on the place where the key is listed.

* `get?_put`: a put value is read back, and no other key is touched;
* `get?_ofList`: of the entries under one key the last is read;
* `get?_eq_some_iff`: under distinct keys, to be read is to be listed;
* `get?_perm`, `get?_filter`, `get?_filterMap`: entries in another order, or only some of them;
* `ofList_perm`, `ofList_eq_self`: entries under distinct keys are all listed, and as they came if
  no key is an array index.
-/

namespace TypedQuery.Members

variable {α : Type} {members : Members α} {key : String} {value : α}

/-! ## Reading what is listed -/

theorem get?_append (a b : Members α) (key : String) :
    get? (a ++ b) key = (get? a key).or (get? b key) := by
  induction a with
  | nil => rfl
  | cons m rest ih => by_cases h : m.1 = key <;> simp [get?, h, ih]

theorem mem_of_get? (h : get? members key = some value) : (key, value) ∈ members := by
  induction members with
  | nil => cases h
  | cons m rest ih =>
    unfold get? at h
    split at h
    · next hk =>
      obtain rfl := Option.some.inj h
      subst hk
      exact List.mem_cons_self ..
    · exact List.mem_cons_of_mem _ (ih h)

theorem get?_eq_none_iff : get? members key = none ↔ key ∉ members.keys := by
  induction members with
  | nil => simp [get?, keys]
  | cons m rest ih =>
    by_cases h : m.1 = key
    · simp [get?, keys, h]
    · have hk : ¬ key = m.1 := fun he => h he.symm
      simpa [get?, keys, h, hk] using ih

theorem mem_keys_of_mem (h : (key, value) ∈ members) : key ∈ members.keys :=
  List.mem_map.mpr ⟨_, h, rfl⟩

theorem mem_keys_iff : key ∈ members.keys ↔ ∃ value, get? members key = some value := by
  rw [← Option.ne_none_iff_exists', ne_eq, get?_eq_none_iff, not_not]

/-- Under distinct keys, to be read is to be listed. -/
theorem get?_eq_some_iff (h : members.keys.Nodup) :
    get? members key = some value ↔ (key, value) ∈ members := by
  refine ⟨mem_of_get?, fun hm => ?_⟩
  induction members with
  | nil => cases hm
  | cons m rest ih =>
    obtain ⟨hk, hrest⟩ := List.nodup_cons.mp h
    rcases List.mem_cons.mp hm with rfl | hm
    · simp [get?]
    · have hne : m.1 ≠ key := by
        rintro rfl
        exact hk (mem_keys_of_mem hm)
      rw [get?, if_neg hne]
      exact ih hrest hm

/-- Under distinct keys the order of the entries does not matter. -/
theorem get?_perm {members' : Members α} (h : members.keys.Nodup) (hp : members.Perm members')
    (key : String) : get? members key = get? members' key := by
  have h' : members'.keys.Nodup := (hp.map Prod.fst).nodup_iff.mp h
  refine Option.ext fun value => ?_
  rw [get?_eq_some_iff h, get?_eq_some_iff h', hp.mem_iff]

/-! ## Reading some of the entries -/

theorem get?_filter (members : Members α) {names : List String} (h : key ∈ names) :
    get? (members.filter fun m => m.1 ∈ names) key = get? members key := by
  induction members with
  | nil => rfl
  | cons m rest ih =>
    by_cases hm : m.1 = key
    · subst hm
      simp [get?, h]
    · by_cases hin : m.1 ∈ names
      · simp [get?, hin, hm, ih]
      · simp [get?, hin, hm, ih]

section FilterMap

variable {β : Type} (h : members.keys.Nodup) (value? : String × α → Option β)
include h

theorem nodup_keys_filterMap :
    (keys (members.filterMap fun m => (value? m).map (m.1, ·))).Nodup := by
  have hkeys : (keys (members.filterMap fun m => (value? m).map (m.1, ·))).Sublist
      members.keys := by
    clear h
    induction members with
    | nil => exact List.Sublist.refl _
    | cons m rest ih =>
      cases hv : value? m with
      | none => simpa [hv, keys] using ih.cons m.1
      | some v => simpa [hv, keys] using ih.cons_cons m.1
  exact hkeys.nodup h

/-- Of entries under distinct keys, each of which leads to a value or to none, the value of an entry
is read under its key. -/
theorem get?_filterMap {m : String × α} (hm : m ∈ members) :
    get? (members.filterMap fun m => (value? m).map (m.1, ·)) m.1 = value? m := by
  refine Option.ext fun v => ?_
  rw [get?_eq_some_iff (nodup_keys_filterMap h value?), List.mem_filterMap]
  constructor
  · rintro ⟨m', hm', hv⟩
    obtain ⟨w, hw, hpair⟩ := Option.map_eq_some_iff.mp hv
    obtain ⟨hkey, rfl⟩ := Prod.mk.inj hpair
    obtain rfl := List.inj_on_of_nodup_map h hm' hm hkey
    exact hw
  · intro hv
    exact ⟨m, hm, by rw [hv]; rfl⟩

end FilterMap

/-! ## Reading what was put -/

theorem get?_replace (h : key ∈ members.keys) (key' : String) :
    get? (replace key value members) key' =
      if key = key' then some value else get? members key' := by
  induction members with
  | nil => cases h
  | cons m rest ih =>
    unfold replace
    by_cases hk : m.1 = key
    · subst hk
      by_cases hk' : m.1 = key' <;> simp [get?, hk']
    · have hrest : key ∈ keys rest := by
        rcases List.mem_cons.mp h with he | he
        · exact absurd he.symm hk
        · exact he
      rw [if_neg hk, get?, ih hrest]
      by_cases hm : m.1 = key'
      · have hne : key ≠ key' := fun he => hk (hm.trans he.symm)
        simp [get?, hm, hne]
      · simp [get?, hm]

theorem get?_insert (h : key ∉ members.keys) (key' : String) :
    get? (insert key value members) key' =
      if key = key' then some value else get? members key' := by
  have hmiddle : ∀ a b : Members α, a ++ b = members →
      get? (a ++ (key, value) :: b) key' =
        if key = key' then some value else get? members key' := by
    intro a b hab
    rw [get?_append, get?]
    split
    · next hk =>
      subst hk
      have ha : get? a key = none := by
        refine get?_eq_none_iff.mpr fun hm => h ?_
        rw [← hab, keys, List.map_append]
        exact List.mem_append_left _ hm
      simp [ha]
    · rw [← get?_append, hab]
  unfold insert
  split
  · exact hmiddle _ _ List.takeWhile_append_dropWhile
  · exact hmiddle members [] (List.append_nil members)

/-- A put value is read back, and no other key is touched. -/
theorem get?_put (members : Members α) (key key' : String) (value : α) :
    get? (put members key value) key' =
      if key = key' then some value else get? members key' := by
  unfold put
  split
  · next h => exact get?_replace h key'
  · next h => exact get?_insert h key'

theorem mem_keys_put {key' : String} :
    key' ∈ (put members key value).keys ↔ key' = key ∨ key' ∈ members.keys := by
  rw [mem_keys_iff, mem_keys_iff, get?_put]
  by_cases h : key = key'
  · simp [h]
  · have hne : key' ≠ key := fun he => h he.symm
    simp [h, hne]

/-- Of the entries under one key the last is read. -/
theorem get?_ofList (entries : List (String × α)) (key : String) :
    get? (ofList entries) key = get? entries.reverse key := by
  induction entries using List.reverseRecOn with
  | nil => rfl
  | append_singleton entries e ih =>
    rw [ofList, List.foldl_append, List.foldl_cons, List.foldl_nil, get?_put, List.reverse_append]
    change (if e.1 = key then some e.2 else get? (ofList entries) key) =
      if e.1 = key then some e.2 else get? entries.reverse key
    rw [ih]

theorem mem_of_mem_ofList {entries : List (String × α)} (h : (key, value) ∈ ofList entries) :
    (key, value) ∈ entries := by
  have hr := (get?_eq_some_iff (nodup_keys_ofList entries)).mpr h
  rw [get?_ofList] at hr
  exact List.mem_reverse.mp (mem_of_get? hr)

theorem mem_keys_ofList {entries : List (String × α)} :
    key ∈ (ofList entries).keys ↔ key ∈ keys entries := by
  rw [mem_keys_iff, get?_ofList, ← mem_keys_iff]
  simp [keys]

/-! ## Entries under distinct keys -/

theorem ofList_concat (entries : List (String × α)) (e : String × α) :
    ofList (entries ++ [e]) = put (ofList entries) e.1 e.2 := by
  simp [ofList, List.foldl_append]

theorem insert_perm (key : String) (value : α) (members : Members α) :
    (insert key value members).Perm (members ++ [(key, value)]) := by
  unfold insert
  split
  · refine List.perm_middle.trans ?_
    rw [List.takeWhile_append_dropWhile]
    exact (List.perm_append_singleton _ _).symm
  · exact List.Perm.refl _

theorem keys_concat (members : Members α) (e : String × α) :
    keys (members ++ [e]) = members.keys ++ [e.1] := by
  simp [keys]

theorem nodup_keys_concat {e : String × α} (h : (keys (members ++ [e])).Nodup) :
    members.keys.Nodup ∧ e.1 ∉ members.keys := by
  rw [keys_concat, List.nodup_append] at h
  exact ⟨h.1, fun hm => h.2.2 _ hm _ (List.mem_singleton_self _) rfl⟩

/-- Entries under distinct keys are all listed. -/
theorem ofList_perm {entries : List (String × α)} (h : (keys entries).Nodup) :
    (ofList entries).Perm entries := by
  induction entries using List.reverseRecOn with
  | nil => exact List.Perm.refl _
  | append_singleton entries e ih =>
    obtain ⟨hn, hnew⟩ := nodup_keys_concat h
    rw [ofList_concat, put, if_neg fun hm => hnew (mem_keys_ofList.mp hm)]
    exact (insert_perm _ _ _).trans ((ih hn).append_right _)

/-- If moreover no key is an array index, they are listed as they came. -/
theorem ofList_eq_self {entries : List (String × α)} (h : (keys entries).Nodup)
    (hi : ∀ key ∈ keys entries, arrayIndex? key = none) : ofList entries = entries := by
  induction entries using List.reverseRecOn with
  | nil => rfl
  | append_singleton entries e ih =>
    obtain ⟨hn, hnew⟩ := nodup_keys_concat h
    rw [keys_concat] at hi
    have he : arrayIndex? e.1 = none := hi _ (List.mem_append_right _ (List.mem_singleton_self _))
    rw [ofList_concat, put, if_neg fun hm => hnew (mem_keys_ofList.mp hm), insert, he,
      ih hn fun key hk => hi key (List.mem_append_left _ hk)]

end TypedQuery.Members
