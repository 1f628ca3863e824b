import UnitCalc.Proofs.Store.Durability

/-!
# `Proofs.Store.Refinement` — a store in a file behaves as one in memory

But for the mutations whose document cannot be written, a file store does what a memory store does
(`file_refines_memory`). These mutations fail and change nothing, so that the memory store that skips them
keeps step: leaving them out of a run gives the run that both stores have in common (`kept`).

The step is `perform_agree`: with equal libraries, an operation that is kept gives equal answers and equal
libraries. The run follows by induction on the operations.
-/

namespace UnitCalc

namespace FileStore

variable {s : FileStore} {o : Operation}

/-- The operation is a mutation that the library accepts and whose document cannot be written. -/
def writeFails (s : FileStore) : Operation → Bool
  | .ask _ => false
  | .change m =>
    match (s.library.apply m).result with
    | .ok l => !(s.disk.replace l.document).2
    | .error _ => false

/-- The operations of a run whose document can be written, or that write none. -/
def kept (s : FileStore) : List Operation → List Operation
  | [] => []
  | o :: os =>
    let later := kept (Store.perform s o).1 os
    if s.writeFails o then later else o :: later

/-! ## One operation -/

/-- A mutation whose document cannot be written fails and changes nothing. -/
theorem perform_of_writeFails (fails : s.writeFails o = true) :
    (Store.perform s o).2.result = .error .io
      ∧ (Store.perform s o).1.library = s.library
      ∧ (Store.perform s o).1.disk.document = s.disk.document := by
  cases o with
  | ask q => cases fails
  | change m =>
    have io : (Store.perform s (.change m)).2.result = .error .io := by
      rw [writeFails] at fails
      rw [Store.perform_change]
      rcases s.apply_cases m with ⟨e, rejected, -⟩ | ⟨l, d, accepted, written, -⟩ | ⟨l, d, -, -, eq⟩
      · rw [rejected] at fails
        cases fails
      · rw [accepted] at fails
        dsimp only at fails
        rw [written] at fails
        cases fails
      · rw [eq]
        rfl
    exact ⟨io, unchanged_of_error io⟩

/-- A mutation that the library rejects takes no step on the disk, and changes nothing at all. -/
theorem perform_of_rejected {m : Mutation} {e : StoreError}
    (rejected : (s.library.apply m).result = .error e) :
    (Store.perform s (.change m)).2.result = .error e
      ∧ (Store.perform s (.change m)).1 = s ∧ s.during m = [s.disk] := by
  have applied : Store.apply s m = (s, ⟨(s.library.apply m).events, .error e⟩) := by
    show s.apply m = _
    rw [apply, rejected]
  rw [Store.perform_change, applied, during, rejected]
  exact ⟨rfl, rfl, rfl⟩

/-- **An operation whose document can be written does in a file what it does in memory.** -/
theorem perform_agree {memory : MemoryStore} (same : s.library = memory.library)
    (writes : s.writeFails o = false) :
    (Store.perform s o).2.result = (Store.perform memory o).2.result
      ∧ (Store.perform s o).1.library = (Store.perform memory o).1.library := by
  cases o with
  | ask q =>
    refine ⟨?_, same⟩
    show s.library.answer q = memory.library.answer q
    rw [same]
  | change m =>
    rw [writeFails] at writes
    rw [Store.perform_change, Store.perform_change]
    -- both stores begin by asking the same library, so that their cases go together
    rcases s.apply_cases m with ⟨e, result, eq⟩ | ⟨l, d, result, -, eq⟩ | ⟨l, d, result, unwritten, -⟩
    · rcases memory.apply_cases m with ⟨e', result', eq'⟩ | ⟨l', result', -⟩
      · rw [same, result'] at result
        cases result
        rw [eq, eq']
        exact ⟨rfl, same⟩
      · rw [same, result'] at result
        cases result
    · rcases memory.apply_cases m with ⟨e', result', -⟩ | ⟨l', result', eq'⟩
      · rw [same, result'] at result
        cases result
      · rw [same, result'] at result
        cases result
        rw [eq, eq']
        exact ⟨rfl, rfl⟩
    · rw [result] at writes
      dsimp only at writes
      rw [unwritten] at writes
      cases writes

/-! ## Runs -/

theorem kept_append (s : FileStore) (os os' : List Operation) :
    s.kept (os ++ os') = s.kept os ++ (Store.after s os).kept os' := by
  induction os generalizing s with
  | nil => rfl
  | cons o os ih =>
    rw [List.cons_append, kept, kept, ih, Store.after]
    cases s.writeFails o <;> rfl

/-- The libraries stay equal throughout a run, when the memory store skips what cannot be written. -/
theorem library_after_kept {memory : MemoryStore} (same : s.library = memory.library)
    (os : List Operation) :
    (Store.after s os).library = (Store.after memory (s.kept os)).library := by
  induction os generalizing s memory with
  | nil => exact same
  | cons o os ih =>
    rw [Store.after, kept]
    cases writes : s.writeFails o with
    | true => exact ih ((perform_of_writeFails writes).2.1.trans same)
    | false => exact ih (perform_agree same writes).2

/-- **A store in a file refines one in memory.** Take any file store and any run of it, and a memory store
with the same library at first that skips the mutations whose document cannot be written. Their libraries
are equal after every step. An operation that is not skipped gives the same result in both. One that is
skipped fails and changes neither library nor document. And a mutation that the library rejects takes no
step on the disk. -/
theorem file_refines_memory (s : FileStore) (os : List Operation) (o : Operation) :
    let file := Store.after s os
    let memory := Store.after (⟨s.library⟩ : MemoryStore) (s.kept os)
    file.library = memory.library ∧
      (file.writeFails o = false → s.kept (os ++ [o]) = s.kept os ++ [o]
        ∧ (Store.perform file o).2.result = (Store.perform memory o).2.result
        ∧ (Store.perform file o).1.library = (Store.perform memory o).1.library) ∧
      (file.writeFails o = true → s.kept (os ++ [o]) = s.kept os
        ∧ (Store.perform file o).2.result = .error .io
        ∧ (Store.perform file o).1.library = file.library
        ∧ (Store.perform file o).1.disk.document = file.disk.document) ∧
      ∀ m e, (file.library.apply m).result = .error e →
        (Store.perform file (.change m)).2.result = .error e
          ∧ (Store.perform file (.change m)).1 = file ∧ file.during m = [file.disk] := by
  intro file memory
  have same : file.library = memory.library := library_after_kept rfl os
  have run : s.kept (os ++ [o]) = s.kept os ++ file.kept [o] := kept_append s os [o]
  refine ⟨same, fun writes => ⟨?_, perform_agree same writes⟩,
    fun fails => ⟨?_, perform_of_writeFails fails⟩, fun m e rejected => perform_of_rejected rejected⟩
  · rw [run, kept, writes]
    rfl
  · rw [run, kept, fails]
    exact List.append_nil _

/-- One category is saved and then cannot be deleted; before that, there is none to be deleted. -/
theorem file_refines_memory_flaky :
    let save : Operation := .change (.saveCategory (.empty .nil))
    let delete : Operation := .change (.deleteCategory .nil)
    flaky.kept [save] = [save] ∧ flaky.kept [save, delete] = [save]
      ∧ (Store.perform flaky delete).1 = flaky := by
  intro save delete
  have saved := ((file_refines_memory flaky [] save).2.1 (by decide +kernel)).1
  have skipped := ((file_refines_memory flaky [save] delete).2.2.1 (by decide +kernel)).1
  have rejected := ((file_refines_memory flaky [] delete).2.2.2 (.deleteCategory .nil) _ rfl).2.1
  exact ⟨saved, skipped.trans saved, rejected⟩

end FileStore

end UnitCalc
