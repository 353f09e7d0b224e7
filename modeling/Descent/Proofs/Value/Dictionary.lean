import Descent.Value.Elements

/-!
The dictionary of a list of members with texts as keys: every key stands where it was first given
and has the value that it was given last.
-/

set_option autoImplicit false
set_option relaxedAutoImplicit false

namespace Descent.Value

/-- The value that the members give a key last. -/
def lastValue (members : List (Text × Value)) (key : Text) : Value :=
  (members.reverse.lookup key).getD .null

/-- The keys of the members in the order of their first places, each with its last value. -/
def dictionary (members : List (Text × Value)) : List (Text × Value) :=
  (members.map Prod.fst).eraseDups.map fun key => (key, lastValue members key)

/-- A member as an entry of a dictionary. -/
def textEntry (member : Text × Value) : Value × Value :=
  (.str member.1, member.2)

theorem lastValue_append (members : List (Text × Value)) (key k : Text) (v : Value) :
    lastValue (members ++ [(key, v)]) k = if k = key then v else lastValue members k := by
  by_cases hk : k = key
  · simp [lastValue, hk]
  · have hbeq : (k == key) = false := beq_eq_false_iff_ne.mpr hk
    simp [lastValue, List.lookup_cons, hk, hbeq]

private theorem same_str (s t : Text) : same (.str s) (.str t) = decide (s = t) := by
  rw [same]
  by_cases h : s = t <;> simp [h]

private theorem nodup_eraseDups (keys : List Text) : keys.eraseDups.Nodup := by
  induction hn : keys.length using Nat.strongRecOn generalizing keys with
  | ind n ih =>
    subst hn
    cases keys with
    | nil => simp
    | cons k keys =>
      have hlt : (keys.filter fun c => !c == k).length < (k :: keys).length :=
        Nat.lt_succ_of_le (List.length_filter_le _ _)
      rw [List.eraseDups_cons, List.nodup_cons]
      exact ⟨by simp, ih _ hlt _ rfl⟩

/-- A key that is there keeps its place. -/
private theorem setEntry_of_mem (valueOf : Text → Value) {key : Text} (v : Value) {keys : List Text}
    (hnodup : keys.Nodup) (hmem : key ∈ keys) :
    setEntry (.str key) v (keys.map fun k => (.str k, valueOf k)) =
      keys.map fun k => (.str k, if k = key then v else valueOf k) := by
  induction keys with
  | nil => cases hmem
  | cons k keys ih =>
    obtain ⟨hk, hkeys⟩ := List.nodup_cons.mp hnodup
    rw [List.map_cons, List.map_cons, setEntry, same_str]
    by_cases heq : k = key
    · subst heq
      have hrest : ∀ k' ∈ keys,
          (Value.str k', valueOf k') = (.str k', if k' = k then v else valueOf k') := by
        intro k' hk'
        have hne : k' ≠ k := fun h => hk (h ▸ hk')
        rw [if_neg hne]
      simp only [decide_true, if_true]
      rw [List.map_congr_left hrest]
    · have hmem' : key ∈ keys := (List.mem_cons.mp hmem).resolve_left fun h => heq h.symm
      simp only [heq, decide_false, Bool.false_eq_true, if_false]
      rw [ih hkeys hmem']

/-- A new key comes last. -/
private theorem setEntry_of_not_mem (valueOf : Text → Value) {key : Text} (v : Value)
    {keys : List Text} (hmem : key ∉ keys) :
    setEntry (.str key) v (keys.map fun k => (.str k, valueOf k)) =
      (keys ++ [key]).map fun k => (.str k, if k = key then v else valueOf k) := by
  induction keys with
  | nil => simp [setEntry]
  | cons k keys ih =>
    have hk : k ≠ key := fun h => hmem (h ▸ List.mem_cons_self)
    have hrest := ih fun h => hmem (List.mem_cons_of_mem _ h)
    rw [List.map_cons, setEntry, same_str, List.cons_append, List.map_cons, hrest]
    simp only [hk, decide_false, Bool.false_eq_true, if_false]

private theorem dictionary_append (members : List (Text × Value)) (key : Text) (v : Value) :
    (dictionary (members ++ [(key, v)])).map textEntry =
      setEntry (.str key) v ((dictionary members).map textEntry) := by
  have hentries : ∀ members : List (Text × Value), (dictionary members).map textEntry =
      (members.map Prod.fst).eraseDups.map fun k => (.str k, lastValue members k) := by
    intro members
    simp [dictionary, textEntry, Function.comp_def]
  have hnodup := nodup_eraseDups (members.map Prod.fst)
  have hkeys : ((members ++ [(key, v)]).map Prod.fst).eraseDups =
      (members.map Prod.fst).eraseDups ++ ([key].removeAll (members.map Prod.fst)).eraseDups := by
    rw [List.map_append, List.eraseDups_append]
    rfl
  rw [hentries, hentries, hkeys]
  simp only [lastValue_append]
  by_cases hmem : key ∈ members.map Prod.fst
  · have hnew : [key].removeAll (members.map Prod.fst) = [] := by simp [List.removeAll, hmem]
    rw [setEntry_of_mem _ _ hnodup (List.mem_eraseDups.mpr hmem), hnew, List.eraseDups_nil,
      List.append_nil]
  · have hnew : [key].removeAll (members.map Prod.fst) = [key] := by simp [List.removeAll, hmem]
    rw [setEntry_of_not_mem _ _ fun h => hmem (List.mem_eraseDups.mp h), hnew]
    rfl

theorem ofEntries_members (members : List (Text × Value)) :
    ofEntries (members.map textEntry) = .dict ((dictionary members).map textEntry) := by
  -- Members are added at the end, so the induction is on the reversed list.
  rw [ofEntries]
  congr 1
  induction hn : members.length generalizing members with
  | zero =>
    obtain rfl := List.length_eq_zero_iff.mp hn
    rfl
  | succ n ih =>
    obtain ⟨front, ⟨key, v⟩, rfl⟩ : ∃ front last, members = front ++ [last] :=
      ⟨_, _, (List.dropLast_concat_getLast (List.ne_nil_of_length_eq_add_one hn)).symm⟩
    have hfront : front.length = n := by simpa using hn
    rw [dictionary_append, ← ih front hfront, List.map_append, List.foldl_append]
    rfl

private theorem mapM_entry (members : List (Text × Value)) (index : Nat) :
    (((members.map fun m => pair (.str m.1) m.2).zipIdx index).mapM fun (part, index) =>
      entry index part) = .ok (members.map textEntry) := by
  induction members generalizing index with
  | nil => rfl
  | cons m members ih =>
    have hentry : entry index (pair (.str m.1) m.2) = .ok (textEntry m) := rfl
    rw [List.map_cons, List.zipIdx_cons, List.mapM_cons, ih]
    simp only [hentry]
    rfl

/-- The dictionary that pairs of keys and values make. -/
theorem toDict_members (members : List (Text × Value)) :
    toDict (.list (members.map fun m => pair (.str m.1) m.2)) =
      .ok (.dict ((dictionary members).map textEntry)) := by
  have hentries := mapM_entry members 0
  rw [← ofEntries_members]
  simp only [toDict, elements, Sequence.ofValue?, Sequence.items]
  exact congrArg (fun e => e >>= fun entries => .ok (ofEntries entries)) hentries

end Descent.Value
