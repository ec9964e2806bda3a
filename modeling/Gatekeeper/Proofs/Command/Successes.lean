import Gatekeeper.Proofs.Command.Failures

namespace Gatekeeper

variable {σ : Type} {w : Surroundings} {scene scene' : Scene} {config : Option String} {c : Configuration}
  {name : String}

theorem Scene.notice_eq_ok_iff {line : String} : scene.notice w line = (.ok (), scene') ↔
    w.errorsFull = false ∧ scene' = { scene with errors := scene.errors ++ [line] } := by
  unfold notice report
  cases w.errorsFull <;> simp [eq_comm]

theorem Connection.eq_of_mint {k : Connection} {i : Identity} {fresh fresh' : Key} {d d' : Disk}
    (h : k.mint d i fresh = (.ok fresh', d')) : fresh = fresh' := by
  unfold mint at h
  split at h
  · cases h
  · cases h
    rfl

namespace Command

theorem finish_eq_success_iff {r : Result Unit} :
    finish w (fun () ↦ .success) r = (.success, scene') ↔ r = (.ok (), scene') := by
  obtain ⟨e | _, scene⟩ := r <;> simp [finish]

theorem printJson_eq_ok_iff {v : Json} : printJson w v scene = (.ok (), scene') ↔
    w.outputFull = false ∧ scene' = { scene with output := scene.output ++ (v.pretty ++ "\n") } := by
  unfold printJson Scene.printLine Scene.print
  cases w.outputFull <;> simp [eq_comm]

theorem withDatabase_eq_ok_iff {α : Type} {f : Connection → Disk → Except CommandError α × Disk} {a : α} :
    withDatabase c scene f = (.ok a, scene') ↔ ∃ s k d d', c.store.database? = some s ∧
      Connection.openDatabase scene.disk s = (.opened k, d) ∧ f k d = (.ok a, d') ∧
      scene' = { scene with disk := k.close d' } := by
  unfold withDatabase openStore
  constructor
  · intro h
    cases hc : c.store.database? with
    | none => simp [hc] at h
    | some s =>
      rcases hopen : Connection.openDatabase scene.disk s with ⟨k | e | _, d⟩ <;> simp only [hc, hopen] at h
      · rcases hf : f k d with ⟨r, d'⟩
        rw [hf] at h
        cases h
        exact ⟨s, k, d, d', rfl, hopen, hf, rfl⟩
      · cases h
      · cases h
  · rintro ⟨s, k, d, d', hc, hopen, hf, rfl⟩
    simp only [hc, hopen, hf]

theorem runMint_eq_ok (h : runMint w name config scene = (.ok (), scene')) :
    (Text.trim name).isEmpty = false ∧ w.outputFull = false ∧ ∃ persisted, scene'.output = scene.output ++
      ((mintedDocument ⟨Text.trim name⟩ w.freshKey persisted).pretty ++ "\n") := by
  unfold runMint at h
  split at h
  · cases h
  next c hload =>
    split at h
    · cases h
    next i htyped =>
      obtain ⟨hblank, rfl⟩ := Identity.typed_eq_ok_iff.1 htyped
      refine ⟨hblank, ?_⟩
      split at h
      · split at h
        · cases h
        next hnotice =>
          obtain ⟨-, rfl⟩ := Scene.notice_eq_ok_iff.1 hnotice
          obtain ⟨hprints, rfl⟩ := printJson_eq_ok_iff.1 h
          exact ⟨hprints, false, rfl⟩
      · split at h
        · cases h
        next k scene₁ hwith =>
          obtain ⟨s, connection, d, d', -, -, hmint, rfl⟩ := withDatabase_eq_ok_iff.1 hwith
          obtain ⟨hprints, rfl⟩ := printJson_eq_ok_iff.1 h
          refine ⟨hprints, true, ?_⟩
          rcases hdone : connection.mint d ⟨Text.trim name⟩ w.freshKey with ⟨e | fresh, d''⟩ <;>
            simp only [hdone, mapError_error, mapError_ok, Prod.mk.injEq] at hmint
          · cases hmint.1
          · obtain rfl := Connection.eq_of_mint hdone
            obtain rfl := Except.ok.inj hmint.1
            rfl

theorem runMint_eq_ok_iff_of_memory (hload : loadConfiguration w config scene = .ok c)
    (hc : c.store.database? = none) : runMint w name config scene = (.ok (), scene') ↔
      (Text.trim name).isEmpty = false ∧ w.errorsFull = false ∧ w.outputFull = false ∧ scene' =
        { scene with
          output := scene.output ++ ((mintedDocument ⟨Text.trim name⟩ w.freshKey false).pretty ++ "\n")
          errors := scene.errors ++ [memoryNotice] } := by
  unfold runMint
  simp only [hload, hc]
  cases hblank : (Text.trim name).isEmpty with
  | true => simp [Identity.typed, hblank]
  | false =>
    have htyped : Identity.typed name = .ok ⟨Text.trim name⟩ := Identity.typed_eq_ok_iff.2 ⟨hblank, rfl⟩
    simp only [htyped, Option.isNone_none, if_true, true_and]
    constructor
    · intro h
      split at h
      · cases h
      next hnotice =>
        obtain ⟨herrors, rfl⟩ := Scene.notice_eq_ok_iff.1 hnotice
        obtain ⟨hprints, rfl⟩ := printJson_eq_ok_iff.1 h
        exact ⟨herrors, hprints, rfl⟩
    · rintro ⟨herrors, hprints, rfl⟩
      rw [Scene.notice_eq_ok_iff.2 ⟨herrors, rfl⟩]
      exact printJson_eq_ok_iff.2 ⟨hprints, rfl⟩

end Command

namespace Chore

theorem run_eq_success_iff {modules : ModuleRegistry σ} {chore : Chore} :
    (chore.command config).run w modules scene = (.success, scene') ↔
      chore.result w config scene = (.ok (), scene') := by
  rw [chore.run_eq, Command.finish_eq_success_iff]

theorem output_of_mint {modules : ModuleRegistry σ}
    (h : ((Chore.mint name).command config).run w modules scene = (.success, scene')) :
    ∃ persisted, scene'.output = scene.output ++
      ((Command.mintedDocument ⟨Text.trim name⟩ w.freshKey persisted).pretty ++ "\n") :=
  (Command.runMint_eq_ok (run_eq_success_iff.1 h)).2.2

end Chore

end Gatekeeper
