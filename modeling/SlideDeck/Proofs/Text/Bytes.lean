import SlideDeck.Text.Hexadecimal

/-! # Byte classes and runs

Facts about the byte classes of the source format, and about the runs that a
scan takes off the front of a text.

There are 256 bytes, so a statement about every byte is decided by trying them
all; the classes need no arithmetic of their own. -/

namespace SlideDeck.Bytes

/-! ## Classes -/

/-- A statement about every byte is settled by trying them all. -/
instance decidableForallByte {p : UInt8 → Prop} [DecidablePred p] : Decidable (∀ b, p b) :=
  decidable_of_iff (∀ n : Fin 256, p (.ofFin n)) ⟨fun h b => h b.toFin, fun h _ => h _⟩

theorem startsIdentifier_not_digit : ∀ b, startsIdentifier b → ¬ isDigit b := by
  decide +kernel

theorem startsIdentifier_not_blank : ∀ b, startsIdentifier b → ¬ isBlank b := by
  decide +kernel

theorem isDigit_not_blank : ∀ b, isDigit b → ¬ isBlank b := by
  decide +kernel

theorem isBlank_newline : isBlank newline := by
  decide

theorem hexByte?_hexPair : ∀ b : UInt8,
    hexByte? (hexDigit (b.toNat / 16)) (hexDigit (b.toNat % 16)) = some b := by
  decide +kernel

/-! ## Runs -/

/-- A run of bytes of a class that does not go on is what `takeWhile` takes. -/
theorem takeWhile_run {p : UInt8 → Bool} {run rest : Bytes} (all : ∀ b ∈ run, p b)
    (stops : ∀ b ∈ rest.head?, ¬ p b) :
    (run ++ rest).takeWhile p = run ∧ (run ++ rest).dropWhile p = rest := by
  rw [List.takeWhile_append_of_pos all, List.dropWhile_append_of_pos all]
  cases rest with
  | nil => simp
  | cons b rest => simp [stops b rfl]

/-- Runs of bytes of a class that do not go on are told apart from what stands behind them. -/
theorem run_append_inj {p : UInt8 → Bool} {run run' rest rest' : Bytes} (all : ∀ b ∈ run, p b)
    (all' : ∀ b ∈ run', p b) (stops : ∀ b ∈ rest.head?, ¬ p b)
    (stops' : ∀ b ∈ rest'.head?, ¬ p b) (h : run ++ rest = run' ++ rest') :
    run = run' ∧ rest = rest' := by
  obtain ⟨taken, dropped⟩ := takeWhile_run all stops
  obtain ⟨taken', dropped'⟩ := takeWhile_run all' stops'
  rw [h] at taken dropped
  exact ⟨taken.symm.trans taken', dropped.symm.trans dropped'⟩

/-- What `takeWhile` takes is a run of bytes of the class that does not go on. -/
theorem exists_run (p : UInt8 → Bool) (source : Bytes) :
    ∃ run rest, source = run ++ rest ∧ (∀ b ∈ run, p b) ∧ ∀ b ∈ rest.head?, ¬ p b := by
  refine ⟨source.takeWhile p, source.dropWhile p, List.takeWhile_append_dropWhile.symm, ?_, ?_⟩
  · exact List.all_eq_true.1 List.all_takeWhile
  · intro b first
    have stopped := List.head?_dropWhile_not p source
    rw [Option.mem_def.1 first] at stopped
    simpa using stopped

end SlideDeck.Bytes
