import Mathlib.Data.Finset.Card
import Mathlib.Data.List.Forall2
import Mathlib.Data.List.Induction
import Mathlib.Data.List.Nodup
import Scriptlet.Record

/-!
# Records that are built by writing

A row of writings comes to a record (`Record.putAll []`) that has each name once, at the place of its
first writing (`Record.names_putAll`), with the value that was written to it last
(`Record.get?_putAll_eq_some_iff`). There is no other such record (`Record.eq_putAll`).

Names grow at the end and values change in place, so what a row comes to is found from its last writing
backwards.
-/

namespace Scriptlet.Record

open List (Forall₂)

variable {α : Type} {record entries written : Record α} {entry : String × α} {name : String}
  {value other : α}

/-- Writes entries one after the other. -/
def putAll (record entries : Record α) : Record α :=
  entries.foldl (fun record entry => put entry.1 entry.2 record) record

@[simp] theorem putAll_concat :
    putAll record (entries ++ [entry]) = put entry.1 entry.2 (putAll record entries) :=
  List.foldl_concat _ _ _ _

@[simp] theorem names_concat : names (entries ++ [entry]) = names entries ++ [entry.1] := by
  simp [names]

/-! ## Names and entries -/

theorem nodup_names_putAll (entries : Record α) (h : (names record).Nodup) :
    (names (putAll record entries)).Nodup := by
  induction entries generalizing record with
  | nil => exact h
  | cons entry rest ih =>
    apply ih
    rw [names_put]
    by_cases hname : entry.1 ∈ names record
    · rwa [if_pos hname]
    · rw [if_neg hname]
      rw [← List.concat_eq_append]
      exact (List.nodup_concat _ _).mpr ⟨hname, h⟩

theorem mem_of_mem_putAll {entries : Record α} (h : entry ∈ putAll record entries) :
    entry ∈ record ∨ entry ∈ entries := by
  induction entries generalizing record with
  | nil => exact .inl h
  | cons first rest ih =>
    rcases ih h with hput | hrest
    · rcases mem_of_mem_put hput with rfl | hrecord
      · exact .inr List.mem_cons_self
      · exact .inl hrecord
    · exact .inr (List.mem_cons_of_mem first hrest)

/-- What can be read was written. -/
theorem mem_of_get?_putAll {entries : Record α} (h : get? (putAll [] entries) name = some value) :
    (name, value) ∈ entries :=
  (mem_of_mem_putAll (mem_of_get?_eq_some h)).resolve_left List.not_mem_nil

theorem mem_names_iff : name ∈ names record ↔ ∃ value, record.get? name = some value := by
  rw [← Option.isSome_iff_exists, Option.isSome_iff_ne_none, ne_eq, get?_eq_none_iff, not_not]

/-- If no name occurs twice, every entry can be read. -/
theorem get?_of_mem (hnodup : (names record).Nodup) (h : (name, value) ∈ record) :
    record.get? name = some value := by
  induction record with
  | nil => cases h
  | cons first rest ih =>
    obtain ⟨hfirst, hrest⟩ := List.nodup_cons.mp hnodup
    rcases List.mem_cons.mp h with rfl | hmem
    · simp [get?]
    · have hname : name ∈ names rest := List.mem_map_of_mem hmem
      have hne : first.1 ≠ name := by
        intro heq
        exact hfirst (heq ▸ hname)
      simpa [get?, hne] using ih hrest hmem

/-! ## The first and the last writing of a name -/

/-- **Each name has the place of its first writing.** -/
theorem names_putAll (written : Record α) :
    names (putAll [] written) = (names written).eraseDups := by
  induction written using List.reverseRecOn with
  | nil => rfl
  | append_singleton written entry ih =>
    have hmem : entry.1 ∈ names (putAll [] written) ↔ entry.1 ∈ names written := by
      rw [ih, List.mem_eraseDups]
    rw [putAll_concat, names_put, names_concat, List.eraseDups_append, ← ih]
    by_cases hname : entry.1 ∈ names written
    · have hnew : [entry.1].removeAll (names written) = [] := by simp [List.removeAll, hname]
      rw [if_pos (hmem.mpr hname), hnew]
      simp
    · have hnew : [entry.1].removeAll (names written) = [entry.1] := by simp [List.removeAll, hname]
      rw [if_neg (hname ∘ hmem.mp), hnew]
      simp [List.eraseDups_cons]

/-- A value is what a row of writings writes to a name last. -/
def WritesLast (written : Record α) (name : String) (value : α) : Prop :=
  ∃ before after, written = before ++ (name, value) :: after ∧ name ∉ names after

theorem not_writesLast_nil : ¬WritesLast [] name value := by
  rintro ⟨before, after, h, -⟩
  simp at h

/-- Where the last entry of a row stands in a row that is taken apart at some entry. -/
theorem concat_eq_append_cons {before after : Record α} {last : String × α}
    (h : written ++ [last] = before ++ entry :: after) :
    (written = before ∧ last = entry ∧ after = []) ∨
      ∃ rest, written = before ++ entry :: rest ∧ after = rest ++ [last] := by
  rcases List.eq_nil_or_concat after with rfl | ⟨rest, final, rfl⟩
  · obtain ⟨hwritten, hlast⟩ := List.append_inj' h rfl
    exact .inl ⟨hwritten, List.singleton_inj.mp hlast, rfl⟩
  · have hrow : written ++ [last] = (before ++ entry :: rest) ++ [final] := by simpa using h
    obtain ⟨hwritten, hlast⟩ := List.append_inj' hrow rfl
    rw [List.concat_eq_append, List.singleton_inj.mp hlast]
    exact .inr ⟨rest, hwritten, rfl⟩

/-- The writing that comes last decides about its own name and about no other. -/
theorem writesLast_concat :
    WritesLast (written ++ [entry]) name value ↔
      if entry.1 = name then entry.2 = value else WritesLast written name value := by
  split
  · rename_i hname
    constructor
    · rintro ⟨before, after, h, hafter⟩
      rcases concat_eq_append_cons h with ⟨-, rfl, -⟩ | ⟨rest, -, rfl⟩
      · rfl
      · exact absurd (by simp [hname]) hafter
    · rintro rfl
      exact ⟨written, [], by simp [← hname], List.not_mem_nil⟩
  · rename_i hname
    constructor
    · rintro ⟨before, after, h, hafter⟩
      rcases concat_eq_append_cons h with ⟨-, rfl, -⟩ | ⟨rest, rfl, rfl⟩
      · exact absurd rfl hname
      · rw [names_concat, List.mem_append, not_or] at hafter
        exact ⟨before, rest, rfl, hafter.1⟩
    · rintro ⟨before, after, rfl, hafter⟩
      refine ⟨before, after ++ [entry], by simp, ?_⟩
      rw [names_concat, List.mem_append, not_or]
      exact ⟨hafter, fun hmem => hname (List.mem_singleton.mp hmem).symm⟩

/-- **Each name has the value that was written to it last.** -/
theorem get?_putAll_eq_some_iff :
    get? (putAll [] written) name = some value ↔ WritesLast written name value := by
  induction written using List.reverseRecOn with
  | nil => simp [putAll, get?, not_writesLast_nil]
  | append_singleton written entry ih =>
    rw [putAll_concat, get?_put, writesLast_concat]
    split
    · exact Option.some_inj
    · exact ih

/-- A name that is written again keeps its place and changes its value. -/
example : putAll [] [("b", 1), ("a", 2), ("b", 3)] = [("b", 3), ("a", 2)] := by decide

theorem WritesLast.unique (h : WritesLast written name value) (hother : WritesLast written name other) :
    value = other := by
  rw [← get?_putAll_eq_some_iff] at h hother
  exact Option.some_inj.mp (h.symm.trans hother)

/-- Every entry has the value that was written to its name last. -/
theorem values_putAll (written : Record α) :
    Forall₂ (WritesLast written) (names (putAll [] written)) ((putAll [] written).map Prod.snd) := by
  rw [names, List.forall₂_map_left_iff, List.forall₂_map_right_iff, List.forall₂_same]
  intro entry hentry
  rw [← get?_putAll_eq_some_iff]
  exact get?_of_mem (nodup_names_putAll written List.nodup_nil) hentry

/-- **A row of writings comes to one record only.** -/
theorem eq_putAll (hnames : names record = (names written).eraseDups)
    (hvalues : Forall₂ (WritesLast written) (names record) (record.map Prod.snd)) :
    record = putAll [] written := by
  have hsame : names record = names (putAll [] written) := hnames.trans (names_putAll written).symm
  rw [hsame] at hvalues
  have hlast := List.right_unique_forall₂' (fun _ _ _ h hother => h.unique hother) hvalues
    (values_putAll written)
  exact (List.zip_of_prod hsame hlast).trans (List.zip_of_prod rfl rfl).symm

/-- There are as many entries as names that were written to. -/
theorem length_putAll (written : Record α) :
    (putAll [] written).length = (names written).toFinset.card := by
  have hnodup : (names (putAll [] written)).Nodup := nodup_names_putAll written List.nodup_nil
  have hset : (names (putAll [] written)).toFinset = (names written).toFinset := by
    ext name
    rw [List.mem_toFinset, List.mem_toFinset, names_putAll, List.mem_eraseDups]
  rw [← hset, List.toFinset_card_of_nodup hnodup, names, List.length_map]

end Scriptlet.Record
