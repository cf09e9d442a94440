import EvidenceFlow.Proofs.Pipeline.RunLaw

/-!
# The stages that a run passes

A run is told by its passages: which stages it passes, in which order their elements are called, what they
end with and what they leave. It goes on behind a passage only if no element of the stage was broken off.
-/

namespace EvidenceFlow.Pipeline

variable {υ : Type}

/-! ## Runs with their passages -/

/-- No stage is run behind one that is concluded so: it ended early, or the flow has been stopped by then. -/
def Final (concluded : Except Halt Unit × Scene υ) : Prop :=
  concluded.1 ≠ .ok () ∨ concluded.2.flow.stopped = true

/-- Another stage is run behind one that ended well, unless the flow has been stopped. -/
theorem not_final_iff {concluded : Except Halt Unit × Scene υ} :
    ¬Final concluded ↔ concluded.1 = .ok () ∧ concluded.2.flow.stopped = false := by
  rw [Final, not_or, not_not, Bool.not_eq_true]

/-- The stages may be run in these passages, with this result. -/
inductive Passes : List (Stage υ) → Scene υ → List (Passage υ) → Except Halt Unit × Scene υ → Prop
  /-- There are no more stages. -/
  | done {scene : Scene υ} : Passes [] scene [] (.ok (), scene)
  /-- The run goes on behind the first stage. -/
  | next {passage : Passage υ} {stage : Stage υ} {rest : List (Stage υ)} {scene : Scene υ}
      {later : List (Passage υ)} {result : Except Halt Unit × Scene υ} (hstage : passage.stage = stage)
      (hfrom : passage.From scene) (hgo : ¬Final passage.concluded)
      (hlater : Passes rest passage.concluded.2 later result) :
      Passes (stage :: rest) scene (passage :: later) result
  /-- The run ends with the first stage. -/
  | last {passage : Passage υ} {stage : Stage υ} {rest : List (Stage υ)} {scene : Scene υ}
      (hstage : passage.stage = stage) (hfrom : passage.From scene) (hfinal : Final passage.concluded) :
      Passes (stage :: rest) scene [passage] passage.concluded

/-- The ways in which stages may be run are those with passages. -/
theorem mayRun_iff {stages : List (Stage υ)} {scene : Scene υ} {result : Except Halt Unit × Scene υ} :
    MayRun stages scene result ↔ ∃ passages, Passes stages scene passages result := by
  constructor
  · intro h
    induction stages generalizing scene with
    | nil =>
      rw [MayRun] at h
      exact ⟨[], h ▸ .done⟩
    | cons stage rest ih =>
      obtain ⟨passage, rfl, hfrom, hresult⟩ := h
      rcases hconcluded : passage.concluded with ⟨halt | _, after⟩
      · rw [hconcluded] at hresult
        refine ⟨[passage], ?_⟩
        rw [hresult, ← hconcluded]
        exact .last rfl hfrom (.inl (by simp [hconcluded]))
      · rw [hconcluded] at hresult
        dsimp only at hresult
        split at hresult
        · next hstop =>
          refine ⟨[passage], ?_⟩
          rw [hresult, ← hconcluded]
          exact .last rfl hfrom (.inr (by simpa [hconcluded] using hstop))
        · next hgo =>
          obtain ⟨later, hlater⟩ := ih hresult
          refine ⟨passage :: later, .next rfl hfrom (not_final_iff.mpr ?_) ?_⟩
          · simpa [hconcluded] using hgo
          · rwa [hconcluded]
  · rintro ⟨passages, h⟩
    induction h with
    | done => rfl
    | @next passage stage rest scene later result hstage hfrom hgo hlater ih =>
      refine ⟨passage, hstage, hfrom, ?_⟩
      rw [not_final_iff] at hgo
      rcases hconcluded : passage.concluded with ⟨halt | _, after⟩
      · rw [hconcluded] at hgo
        cases hgo.1
      · rw [hconcluded] at hgo ih
        dsimp only at hgo ⊢
        rw [hgo.2]
        exact ih
    | @last passage stage rest scene hstage hfrom hfinal =>
      refine ⟨passage, hstage, hfrom, ?_⟩
      rcases hconcluded : passage.concluded with ⟨halt | _, after⟩
      · rfl
      · rw [hconcluded] at hfinal
        have hstop : after.flow.stopped = true := hfinal.resolve_left (fun hne => hne rfl)
        dsimp only
        rw [if_pos hstop]

/-- The scene on which a run calls the next stage. -/
def reached (start : Scene υ) : List (Passage υ) → Scene υ
  | [] => start
  | passage :: later => reached passage.concluded.2 later

/-- What the run of a pipeline ends with once its stages have been run. -/
def reported (settings : PipelineSettings) : Except Halt Unit × Scene υ → Except Halt Unit × Scene υ
  | (.ok (), after) => (report settings after.flow).runOn after
  | (.error halt, after) => (.error halt, after)

/-- The pipeline may process the flow in these passages, with this result. -/
inductive Processes (p : Pipeline υ) (scene : Scene υ) :
    List (Passage υ) → Except Halt Unit × Scene υ → Prop
  /-- Processing has begun before. -/
  | refused {fault : Fault} (hbegin : scene.flow.begin = .error fault) :
      Processes p scene [] (.error (.fault fault), scene)
  /-- The pipeline takes no more work. -/
  | closed {flow : Flow} (hbegin : scene.flow.begin = .ok flow) (hclosed : p.closed = true) :
      Processes p scene [] (.error (.fault .closed), { scene with flow })
  /-- The stages are run. -/
  | ran {flow : Flow} {passages : List (Passage υ)} {ran : Except Halt Unit × Scene υ}
      (hbegin : scene.flow.begin = .ok flow) (hopen : p.closed = false)
      (hpasses : Passes p.stages { scene with flow } passages ran) :
      Processes p scene passages (reported p.settings ran)

/-- The passages are those of a run of the stages, unless there are none. -/
theorem Processes.passes_of_ne_nil {p : Pipeline υ} {scene : Scene υ} {passages : List (Passage υ)}
    {result : Except Halt Unit × Scene υ} (h : p.Processes scene passages result) (hsome : passages ≠ []) :
    ∃ ran, result = reported p.settings ran ∧ Passes p.stages (begun scene) passages ran := by
  cases h with
  | refused => exact absurd rfl hsome
  | closed => exact absurd rfl hsome
  | @ran flow _ ran hbegin _ hpasses =>
    rw [Flow.begin] at hbegin
    split at hbegin
    · cases hbegin
    · cases hbegin
      exact ⟨ran, rfl, hpasses⟩

/-- The ways in which a pipeline may process a flow are those with passages. -/
theorem mayProcess_iff {p : Pipeline υ} {scene : Scene υ} {result : Except Halt Unit × Scene υ} :
    p.MayProcess scene result ↔ ∃ passages, p.Processes scene passages result := by
  rw [MayProcess]
  constructor
  · intro h
    cases hbegin : scene.flow.begin with
    | error fault =>
      rw [hbegin] at h
      exact ⟨[], h ▸ .refused hbegin⟩
    | ok flow =>
      simp only [hbegin] at h
      split at h
      · next hclosed => exact ⟨[], h ▸ .closed hbegin hclosed⟩
      · next hopen =>
        obtain ⟨ran, hran, hresult⟩ := h
        obtain ⟨passages, hpasses⟩ := mayRun_iff.mp hran
        have hresult : result = reported p.settings ran := by
          rcases ran with ⟨halt | _, after⟩ <;> exact hresult
        exact ⟨passages, hresult ▸ .ran hbegin (Bool.eq_false_iff.mpr hopen) hpasses⟩
  · rintro ⟨passages, h⟩
    cases h with
    | refused hbegin => rw [hbegin]
    | closed hbegin hclosed => simp [hbegin, hclosed]
    | @ran _ _ ran hbegin hopen hpasses =>
      simp only [hbegin, hopen]
      refine ⟨_, mayRun_iff.mpr ⟨_, hpasses⟩, ?_⟩
      rcases ran with ⟨halt | _, after⟩ <;> rfl

/-- To process the flow with the calls as they are declared is one way. -/
theorem exists_processes (p : Pipeline υ) (scene : Scene υ) :
    ∃ passages, p.Processes scene passages (p.process.runOn scene) :=
  mayProcess_iff.mp (mayProcess_process p scene)

/-! ## Calls -/

namespace Passage

variable {passage : Passage υ} {scene : Scene υ}

/-- Every element of the stage is called. -/
theorem From.exists_turn_of_mem (h : passage.From scene) {x : Element υ}
    (hx : x ∈ passage.stage.elements) : ∃ turn ∈ passage.turns, turn.1 = x :=
  List.mem_map.mp (h.map_turns_perm.mem_iff.mpr hx)

/-- What a call ends with is collected. -/
theorem From.mem_ended (h : passage.From scene) {turn : Turn υ} (hturn : turn ∈ passage.turns) :
    turn.2 ∈ passage.ended :=
  (List.of_mem_zip (h.perm.mem_iff.mp hturn)).2

/-- If the run goes on behind a stage, no call was broken off. -/
theorem From.ne_panic (h : passage.From scene) (hgo : ¬Final passage.concluded) {turn : Turn υ}
    (hturn : turn ∈ passage.turns) (message : String) : turn.2 ≠ .error (.panic message) := by
  intro hpanic
  refine hgo (.inl ?_)
  rw [concluded, conclude]
  cases hbroken : passage.ended.findSome? panicOf? with
  | some first =>
    intro hok
    cases hok
  | none =>
    have hnone := List.findSome?_eq_none_iff.mp hbroken turn.2 (h.mem_ended hturn)
    rw [hpanic] at hnone
    cases hnone

end Passage

end EvidenceFlow.Pipeline
