import TrackerFpga.Server.Dispatch

/-!
# Keywords

An `else if` chain that compares each keyword in its own length takes a word for the keyword that it
begins with.  No two keywords of a chain agree in the length that both are compared in
(`Unambiguous`), so the order of the chain does not matter, and a word that matches a keyword is
taken for this one (`lookup_iff`).
-/

namespace TrackerFpga.Server

open ByteCodec CString

variable {γ : Type} {table : List (Keyword γ)} {k l : Keyword γ} {cmd word : List Byte} {c : γ}
  {n : ℕ}

/-- No word matches two lines of the table. -/
def Unambiguous (table : List (Keyword γ)) : Prop :=
  table.Pairwise fun k l =>
    (bytes k.text).take (min k.len l.len) ≠ (bytes l.text).take (min k.len l.len)

instance (table : List (Keyword γ)) : Decidable (Unambiguous table) :=
  inferInstanceAs (Decidable (table.Pairwise _))

/-- Two keywords that match the same word agree in the shorter length. -/
lemma take_eq_of_matches (hk : strncmp (bytes k.text) cmd k.len = true)
    (hl : strncmp (bytes l.text) cmd l.len = true) :
    (bytes k.text).take (min k.len l.len) = (bytes l.text).take (min k.len l.len) := by
  rw [strncmp_iff] at hk hl
  calc (bytes k.text).take (min k.len l.len)
      = ((bytes k.text).take k.len).take (min k.len l.len) := by
        rw [List.take_take, Nat.min_eq_left (Nat.min_le_left _ _)]
    _ = cmd.take (min k.len l.len) := by
        rw [hk, List.take_take, Nat.min_eq_left (Nat.min_le_left _ _)]
    _ = ((bytes l.text).take l.len).take (min k.len l.len) := by
        rw [hl, List.take_take, Nat.min_eq_left (Nat.min_le_right _ _)]
    _ = (bytes l.text).take (min k.len l.len) := by
        rw [List.take_take, Nat.min_eq_left (Nat.min_le_right _ _)]

lemma exists_of_lookup (h : lookup table cmd = some c) :
    ∃ k ∈ table, k.command = c ∧ strncmp (bytes k.text) cmd k.len = true := by
  obtain ⟨k, hk, rfl⟩ := Option.map_eq_some_iff.mp h
  have hmatch := List.find?_some (p := fun k : Keyword γ => strncmp (bytes k.text) cmd k.len) hk
  exact ⟨k, List.mem_of_find?_eq_some hk, rfl, hmatch⟩

/-- A line that matches is the first one that does. -/
lemma lookup_of_match (htable : Unambiguous table) (hk : k ∈ table)
    (hmatch : strncmp (bytes k.text) cmd k.len = true) : lookup table cmd = some k.command := by
  induction table with
  | nil => exact absurd hk List.not_mem_nil
  | cons l table ih =>
      obtain ⟨hfirst, hrest⟩ := List.pairwise_cons.mp htable
      by_cases hl : strncmp (bytes l.text) cmd l.len = true
      · have hsame : k = l := by
          rcases List.mem_cons.mp hk with hkl | hmem
          · exact hkl
          · exact absurd (take_eq_of_matches hl hmatch) (hfirst k hmem)
        rw [lookup, List.find?_cons_of_pos (by exact hl), hsame]
        rfl
      · have hmem : k ∈ table := by
          rcases List.mem_cons.mp hk with rfl | hmem
          · exact absurd hmatch hl
          · exact hmem
        rw [lookup, List.find?_cons_of_neg (by exact hl)]
        exact ih hrest hmem

/-- The command of the line for `word` is what the words that match it come to. -/
lemma lookup_iff (htable : Unambiguous table) (hcommands : (table.map Keyword.command).Nodup)
    (hline : ∃ k ∈ table, k.command = c ∧ bytes k.text = word ∧ k.len = n) :
    lookup table cmd = some c ↔ strncmp word cmd n = true := by
  obtain ⟨k, hk, rfl, rfl, rfl⟩ := hline
  refine ⟨fun h => ?_, lookup_of_match htable hk⟩
  obtain ⟨l, hl, hcommand, hmatch⟩ := exists_of_lookup h
  obtain rfl : l = k := List.inj_on_of_nodup_map hcommands hl hk hcommand
  exact hmatch

end TrackerFpga.Server
