import Mathlib.Tactic

/-!
# Records by their keys

A store keeps a list of records, each with a key, and finds the first record with a given key.  The
lemmas say what is found after a record was replaced or erased.
-/

namespace TaskQueue.Store.Records

variable {ρ κ : Type} [DecidableEq κ] (key : ρ → κ)

theorem keys_replace (records : List ρ) (r : ρ) :
    (records.map fun s => if key s = key r then r else s).map key = records.map key := by
  rw [List.map_map]
  apply List.map_congr_left
  intro s _
  by_cases hs : key s = key r
  · simp [hs]
  · simp [hs]

theorem find_replace (records : List ρ) (r : ρ) (k : κ) :
    ((records.map fun s => if key s = key r then r else s).find? fun s => key s = k) =
      if k = key r then (records.find? fun s => key s = k).map fun _ => r
      else records.find? fun s => key s = k := by
  have hsame : ((fun s : ρ => decide (key s = k)) ∘ fun s => if key s = key r then r else s) =
      fun s => decide (key s = k) := by
    funext s
    by_cases hs : key s = key r
    · simp [hs]
    · simp [hs]
  rw [List.find?_map, hsame]
  cases hfind : records.find? fun s => decide (key s = k) with
  | none => simp
  | some s =>
      have hs : key s = k := by simpa using List.find?_some hfind
      by_cases hk : k = key r
      · simp [hs, hk]
      · simp [hs, hk]

/-- Of two records with one key that are put in, the later one stays. -/
theorem replace_replace (records : List ρ) {r u : ρ} (hkey : key u = key r) :
    ((records.map fun s => if key s = key r then r else s).map fun s =>
        if key s = key u then u else s) =
      records.map fun s => if key s = key u then u else s := by
  rw [List.map_map]
  apply List.map_congr_left
  intro s _
  by_cases hs : key s = key r
  · simp [hs, hkey]
  · simp [hs]

/-- The new record stands where the one with its key stood. -/
theorem replace_middle {before after : List ρ} {r u : ρ}
    (hnodup : ((before ++ r :: after).map key).Nodup) (hu : key u = key r) :
    ((before ++ r :: after).map fun s => if key s = key u then u else s) =
      before ++ u :: after := by
  rw [List.map_append, List.map_cons, List.nodup_append, List.nodup_cons] at hnodup
  obtain ⟨-, ⟨hafter, -⟩, hbefore⟩ := hnodup
  have hkeep : ∀ {records : List ρ}, (∀ s ∈ records, key s ≠ key r) →
      (records.map fun s => if key s = key u then u else s) = records := by
    intro records hne
    rw [List.map_congr_left fun s hs => if_neg (hu ▸ hne s hs), List.map_id']
  rw [List.map_append, List.map_cons, if_pos hu.symm, hkeep, hkeep]
  · exact fun s hs hkey => hafter (hkey ▸ List.mem_map_of_mem hs)
  · exact fun s hs => hbefore _ (List.mem_map_of_mem hs) _ List.mem_cons_self

/-- Records that are selected by a property which the new record does not have. -/
theorem filter_replace (records : List ρ) {r : ρ} {p : ρ → Bool} (hr : p r = false) :
    (records.map fun s => if key s = key r then r else s).filter p =
      (records.filter p).filter fun s => key s ≠ key r := by
  induction records with
  | nil => rfl
  | cons s rest ih =>
      by_cases hs : key s = key r
      · cases hp : p s with
        | true => simp [hs, hr, hp, ih]
        | false => simp [hs, hr, hp, ih]
      · cases hp : p s with
        | true => simp [hs, hp, ih]
        | false => simp [hs, hp, ih]

theorem find_erase (records : List ρ) (gone k : κ) :
    ((records.filter fun s => key s ≠ gone).find? fun s => key s = k) =
      if k = gone then none else records.find? fun s => key s = k := by
  rw [List.find?_filter]
  by_cases hk : k = gone
  · simp [hk]
  · rw [if_neg hk]
    congr 1
    funext s
    by_cases hs : key s = k
    · simp [hs, hk]
    · simp [hs]

variable {key}

/-- If no two records have the same key, each one is found by its key. -/
theorem find_of_mem {records : List ρ} (hnodup : (records.map key).Nodup) {r : ρ}
    (hr : r ∈ records) : (records.find? fun s => key s = key r) = some r := by
  cases hfind : records.find? fun s => key s = key r with
  | none =>
      rw [List.find?_eq_none] at hfind
      simpa using hfind r hr
  | some s =>
      have hkey : key s = key r := by simpa using List.find?_some hfind
      rw [List.inj_on_of_nodup_map hnodup (List.mem_of_find?_eq_some hfind) hr hkey]

end TaskQueue.Store.Records
