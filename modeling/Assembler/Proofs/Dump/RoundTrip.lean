import Assembler.Proofs.Dump.Presentation

/-!
# Dumps are read back

A dump whose numbers are in the ranges of their fields is written as a JSON text without control
characters, and reading this text gives the dump back, whatever its texts hold and however many rows
it has.  So two different dumps are never written as the same text.

## Main definitions

* `Dump.Reloads` : a dump is read back, and no other dump is written as the same text.

## Main results

* `Dump.isValue_write`, and the same for the rows : what is written is JSON.
* `Dump.reloads_of_fits` : dumps are read back.
-/

namespace Assembler.Dump

open Json

/-! ### What is written is JSON -/

theorem Line.isValue_write (row : Line) : IsValue row.write :=
  isValue_writeObject <| by
    simp only [List.forall_mem_cons]
    exact ⟨isValue_writeNatural _, isValue_writeNatural _, isValue_writeString _,
      isValue_writeOption isValue_writeString _, fun _ hmem => by cases hmem⟩

theorem Symbol.isValue_write (row : Symbol) : IsValue row.write :=
  isValue_writeObject <| by
    simp only [List.forall_mem_cons]
    exact ⟨isValue_writeNatural _, isValue_writeString _,
      isValue_writeOption isValue_writeNatural _, isValue_writeNatural _,
      fun _ hmem => by cases hmem⟩

theorem Literal.isValue_write (row : Literal) : IsValue row.write :=
  isValue_writeObject <| by
    simp only [List.forall_mem_cons]
    exact ⟨isValue_writeNatural _, isValue_writeString _,
      isValue_writeOption isValue_writeNatural _, fun _ hmem => by cases hmem⟩

theorem isValue_write (dump : Dump) : IsValue dump.write := by
  have harray : ∀ {α : Type} (write : α → List Char) (values : List α),
      (∀ value, IsValue (write value)) → IsValue (writeArray (values.map write)) := by
    intro α write values h
    refine isValue_writeArray fun item hmem => ?_
    obtain ⟨value, -, rfl⟩ := List.mem_map.mp hmem
    exact h value
  refine isValue_writeObject ?_
  simp only [List.forall_mem_cons]
  exact ⟨isValue_writeString _, isValue_writeNatural _, harray _ _ Line.isValue_write,
    harray _ _ Symbol.isValue_write, harray _ _ Literal.isValue_write,
    harray _ _ isValue_writeNatural, harray _ _ isValue_writeString, fun _ hmem => by cases hmem⟩

/-! ### Reading it back -/

/-- A dump is written as a JSON text without control characters, it is read back from that text, and
no other dump is written as the same text. -/
structure Reloads (dump : Dump) : Prop where
  value : IsValue dump.text.toList
  printable : ∀ c ∈ dump.text.toList, 0x20 ≤ c.toNat
  reload : ofText dump.text = .ok dump
  unique : ∀ other : Dump, other.Fits → other.text = dump.text → other = dump

private theorem ofText_text {dump : Dump} (h : dump.Fits) : ofText dump.text = .ok dump :=
  (presented_text dump).ofText_eq h

/-- Dumps are read back. -/
theorem reloads_of_fits {dump : Dump} (h : dump.Fits) : dump.Reloads where
  value := by
    rw [toList_text]
    exact isValue_write dump
  printable c hmem := by
    rw [toList_text] at hmem
    exact (isValue_write dump).le_toNat hmem
  reload := ofText_text h
  unique other hother htext := by
    have hreload := ofText_text hother
    rw [htext, ofText_text h] at hreload
    exact (Except.ok.inj hreload).symm

/-- A dump with the greatest numbers, and with texts that must be escaped. -/
def escapedDump : Dump where
  name := "a\"\\/\n\x00\x1f\x7fé"
  start := 4294967295
  lines := [⟨18446744073709551615, 200, "(IS,04)(1)(S,1)", some "+ 04 1 201"⟩, ⟨3, 201, "", none⟩]
  symbols := [⟨1, "X", some 201, 1⟩, ⟨2, "", none, 4294967295⟩]
  literals := [⟨1, "='5'", none⟩]
  pools := [1, 0]
  diagnostics := ["line 1: \t"]

theorem reloads_escapedDump : escapedDump.Fits ∧ escapedDump.Reloads := by
  have hfits : escapedDump.Fits :=
    ⟨by decide,
      by
        simp only [escapedDump, List.forall_mem_cons]
        exact ⟨⟨by decide, by decide⟩, ⟨by decide, by decide⟩, fun _ hmem => by cases hmem⟩,
      by
        simp only [escapedDump, List.forall_mem_cons]
        exact ⟨⟨by decide, by decide, by decide⟩, ⟨by decide, by decide, by decide⟩,
          fun _ hmem => by cases hmem⟩,
      by
        simp only [escapedDump, List.forall_mem_cons]
        exact ⟨⟨by decide, by decide⟩, fun _ hmem => by cases hmem⟩,
      by decide⟩
  exact ⟨hfits, reloads_of_fits hfits⟩

end Assembler.Dump
