/-
This file proves that the lines of a file say which records were written. A line
is the text of a record with its kind, which has no end of a line inside whatever
the record holds; so the cuts at the ends of lines are the cuts between records,
and what stands between two of them is read back as the record with its kind.
-/

import CiTelemetry.Export.LineFile
import CiTelemetry.Log.MetricLine
import CiTelemetry.Proofs.JsonRoundTrip
import CiTelemetry.Proofs.Utf8

namespace CiTelemetry

open MetricLine (newline)

theorem EntityKind.ofName?_name (kind : EntityKind) : ofName? kind.name = some kind := by
  cases kind <;> rfl

namespace LineFile

/-! ### One line -/

/-- What a line says: an object of exactly a kind and a record. -/
def record? (row : Bytes) : Option (EntityKind × Json) :=
  match Json.ofBytes? row with
  | some (.obj [(first, .str name), (second, record)]) =>
    if first = "kind" ∧ second = "record" then (EntityKind.ofName? name).map (·, record) else none
  | _ => none

/-- The bytes of a line without its end. -/
def row (entry : EntityKind × Json) : Bytes :=
  Utf8.encode (envelope entry.1 entry.2).render

variable {entry : EntityKind × Json}

theorem isStored_envelope (stored : entry.2.isStored = true) :
    (envelope entry.1 entry.2).isStored = true := by
  simp [envelope, Json.isStored, Json.fieldsStored, stored]

theorem ofBytes?_row (stored : entry.2.isStored = true) :
    Json.ofBytes? (row entry) = some (envelope entry.1 entry.2) := by
  rw [Json.ofBytes?, row, Utf8.decode?_encode, Option.bind_some,
    Json.parse?_render (isStored_envelope stored)]

/-- A line says what was written. -/
theorem record?_row (stored : entry.2.isStored = true) : record? (row entry) = some entry := by
  rw [record?, ofBytes?_row stored]
  show (if "kind" = "kind" ∧ "record" = "record" then
    (EntityKind.ofName? entry.1.name).map (·, entry.2) else none) = some entry
  rw [if_pos ⟨rfl, rfl⟩, EntityKind.ofName?_name, Option.map_some]

/-- No line has an end inside. -/
theorem newline_notMem_row (stored : entry.2.isStored = true) : newline ∉ row entry := by
  intro member
  obtain ⟨char, inText, inChar⟩ := List.mem_flatMap.mp member
  have same : newline.toNat = char.toNat := Utf8.toNat_of_mem_encodeChar (by decide) inChar
  have isNewline : char = '\n' := Char.ext (UInt32.toNat_inj.mp same.symm)
  rw [isNewline] at inText
  exact Json.newline_notMem_render (isStored_envelope stored) inText

/-! ### All lines -/

/-- The bytes of lines with their ends. -/
def bytes (entries : List (EntityKind × Json)) : Bytes :=
  entries.flatMap fun entry => row entry ++ [newline]

theorem encode_lines (kind : EntityKind) (records : List Json) :
    Utf8.encode (lines kind records) = bytes (records.map (kind, ·)) := by
  have ended : Utf8.encode "\n" = [newline] := rfl
  induction records with
  | nil => rfl
  | cons record rest inductionHypothesis =>
    rw [lines, List.map_cons, String.join_cons, Utf8.encode_append]
    rw [lines] at inductionHypothesis
    rw [inductionHypothesis, line, Utf8.encode_append, ended]
    rfl

/-- Lines are told apart by their ends, after the last of which nothing follows. -/
theorem splitOn_bytes (entries : List (EntityKind × Json))
    (stored : ∀ entry ∈ entries, entry.2.isStored = true) :
    (bytes entries).splitOn newline = entries.map row ++ [[]] := by
  induction entries with
  | nil => rfl
  | cons entry rest inductionHypothesis =>
    have clean := newline_notMem_row (stored entry List.mem_cons_self)
    have others := inductionHypothesis fun entry member =>
      stored entry (List.mem_cons_of_mem _ member)
    rw [bytes, List.splitOn] at others
    rw [bytes, List.flatMap_cons, List.append_assoc, List.singleton_append, List.splitOn,
      List.splitOnP_append_cons_of_forall_mem, others]
    · rfl
    · intro byte member
      rw [beq_eq_false_iff_ne]
      rintro rfl
      exact clean member
    · exact beq_self_eq_true newline

/-- The lines of a file say exactly what was written, one after another. -/
theorem map_record?_row (entries : List (EntityKind × Json))
    (stored : ∀ entry ∈ entries, entry.2.isStored = true) :
    (entries.map row).map record? = entries.map some := by
  rw [List.map_map]
  exact List.map_congr_left fun entry member => record?_row (stored entry member)

end LineFile

end CiTelemetry
