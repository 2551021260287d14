import Statechart.Proofs.Table.Scan
import Statechart.Proofs.Text.Bytewise
import Statechart.Storage.Store

/-!
# Scans of the store

The keys of a store are in bytewise order, and so are its scans: a scan starts at the text that the
keys are to begin with and stops at the first key that does not begin with it.

- `Store.scan_complete` : it finds all keys that begin with the text, and no others
-/

namespace Statechart
namespace Store

open Text

theorem beginsWith_iff_bytes {stem name : String} :
    Table.beginsWith stem name = true ↔ bytes stem <+: bytes name :=
  Table.beginsWith_iff.trans bytes_isPrefix_iff.symm

/-- A scan finds the entries whose key begins with a text, byte for byte: all of them, each once,
in bytewise order. It is one piece of the store. The keys before it are below the text, where the
scan does not look for them, and do not begin with it; nor do the keys after it, which the scan
does not come to. -/
theorem scan_complete (s : Store) (stem : String) :
    (∀ key value,
      (key, value) ∈ s.scan stem ↔ s.get? key = some value ∧ bytes stem <+: bytes key) ∧
    (s.scan stem).Pairwise (fun a b => bytes a.1 < bytes b.1) ∧
    ∃ below above,
      s.table.entries = below ++ s.scan stem ++ above ∧
      (∀ entry ∈ below, bytes entry.1 < bytes stem ∧ ¬ bytes stem <+: bytes entry.1) ∧
      ∀ entry ∈ above, bytes stem < bytes entry.1 ∧ ¬ bytes stem <+: bytes entry.1 := by
  refine ⟨fun key value => ?_, ?_, ?_⟩
  · rw [scan, Table.mem_scan_iff, bytes_isPrefix_iff]
    exact And.comm
  · have hsorted : InOrder (s.scan stem) := by
      rw [scan, Table.scan_eq_filter]
      exact s.table.inOrder.filter _
    exact hsorted.imp lt_iff_bytes_lt.1
  · obtain ⟨below, above, hcut, hbelow, habove⟩ := s.table.exists_cut stem
    refine ⟨below, above, hcut, fun entry hin => ?_, fun entry hin => ?_⟩
    · have hlt := hbelow entry hin
      refine ⟨lt_iff_bytes_lt.1 hlt, fun hbegins => ?_⟩
      exact not_lt_of_isPrefix (bytes_isPrefix_iff.1 hbegins) hlt
    · obtain ⟨hlt, hnot⟩ := habove entry hin
      refine ⟨lt_iff_bytes_lt.1 hlt, fun hbegins => ?_⟩
      rw [beginsWith_iff_bytes.2 hbegins] at hnot
      cases hnot

/-- Keys just below and just above those that are looked for are left out. -/
example :
    (Store.mk "store" true
        (Table.ofList [("b0", .null), ("b/y", .null), ("b", .null), ("b/", .null), ("a", .null),
          ("b.", .null)])).scan "b/" =
      [("b/", .null), ("b/y", .null)] := by
  rfl

end Store
end Statechart
