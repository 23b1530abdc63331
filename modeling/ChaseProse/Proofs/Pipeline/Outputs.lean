import ChaseProse.Proofs.Files.Atomic
import ChaseProse.Pipeline
import Mathlib.Data.List.Forall2
/-! What the stages leave on the files: a failed stage leaves the world as it was, a successful one
has replaced its output only, and a full run keeps the outputs of the stages before a failure. -/
namespace ChaseProse.Pipeline
open ChaseProse.Files ChaseProse.Chase ChaseProse.Json ChaseProse.Prose
open ChaseProse.Files.World (Wrote MadeDirsFor)

/-- A piece of work run from a session: how it ended, and the session it left. -/
def exec {α : Type} (m : Work α) (s : Session) : Except StageError α × Session := (m.run.run s).run

section Run

variable {α β ε : Type}

@[simp] theorem exec_pure (a : α) (s : Session) : exec (pure a) s = (.ok a, s) := rfl

@[simp] theorem exec_throw (e : StageError) (s : Session) :
    exec (throw e : Work α) s = (.error e, s) := rfl

@[simp] theorem exec_get (s : Session) : exec (get : Work Session) s = (.ok s, s) := rfl

@[simp] theorem exec_modify (f : Session → Session) (s : Session) :
    exec (modify f : Work Unit) s = (.ok (), f s) := rfl

@[simp] theorem exec_emit (l : LogLine) (s : Session) :
    exec (emit l) s = (.ok (), { s with log := s.log ++ [l] }) := rfl

@[simp] theorem exec_orFail_ok (wrap : ε → StageError) (a : α) (s : Session) :
    exec (orFail wrap (.ok a)) s = (.ok a, s) := rfl

@[simp] theorem exec_orFail_error (wrap : ε → StageError) (e : ε) (s : Session) :
    exec (orFail wrap (.error e : Except ε α)) s = (.error (wrap e), s) := rfl

theorem exec_bind (x : Work α) (f : α → Work β) (s : Session) :
    exec (x >>= f) s = match exec x s with
      | (.ok a, s') => exec (f a) s'
      | (.error e, s') => (.error e, s') := by
  unfold exec
  rw [ExceptT.run_bind, StateT.run_bind]
  rcases StateT.run (ExceptT.run x) s with ⟨_ | a, s'⟩ <;> rfl

theorem exec_tryCatch (x : Work α) (h : StageError → Work α) (s : Session) :
    exec (tryCatch x h) s = match exec x s with
      | (.ok a, s') => (.ok a, s')
      | (.error e, s') => exec (h e) s' := by
  unfold exec
  rw [ExceptT.run_tryCatch, StateT.run_bind]
  rcases StateT.run (ExceptT.run x) s with ⟨_ | a, s'⟩ <;> rfl

theorem exec_emitNotices (ns : List Notice) (s : Session) :
    exec (emitNotices ns) s = (.ok (), { s with log := s.log ++ ns.map Notice.toLine }) := by
  induction ns generalizing s with
  | nil => simp [emitNotices]
  | cons n ns ih =>
    simp only [emitNotices, List.forM_eq_forM] at ih ⊢
    rw [List.forM_cons, exec_bind]
    simp [ih]

/-- A stage's scope logs around its body and changes nothing else. -/
theorem exec_staged (stage : Stage) (input output : String) (body : Work α)
    (counters : α → List (String × String)) (s : Session) :
    exec (staged stage input output body counters) s =
      match exec body { s with log := s.log ++
          [⟨stage.name ++ "_BEGIN", .info, [("input", input), ("output", output)]⟩] } with
      | (.ok r, s') => (.ok r, { s' with log := s'.log ++
          [⟨stage.name ++ "_COMPLETE", .info, counters r ++ [("elapsed_ms", "0")]⟩] })
      | (.error e, s') => (.error e, { s' with log := s'.log ++
          [⟨stage.name ++ "_FAILED", .error, [("code", e.code), ("reason", e.message)]⟩] }) := by
  unfold staged
  rw [exec_bind, exec_emit]
  dsimp only
  rw [exec_tryCatch, exec_bind]
  rcases exec body _ with ⟨_ | r, s'⟩ <;> simp only [exec_bind, exec_emit, exec_pure, exec_throw]

theorem exec_loadStore (input : String) (s : Session) :
    exec (loadStore input) s =
      match s.world.readDocument input stepsShape readSteps? >>= Store.ofSteps with
      | .ok t => (.ok t, { s with log := s.log ++
          [⟨"TRACE_LOADED", .info, [("path", input), ("steps", toString t.size)]⟩] })
      | .error e => (.error (.chase e), s) := by
  unfold loadStore
  simp only [exec_bind, exec_get]
  cases s.world.readDocument input stepsShape readSteps? with
  | error e => rfl
  | ok steps =>
    simp only [exec_orFail_ok, ok_bind]
    cases Store.ofSteps steps <;> rfl

theorem exec_loadDictionary (path : String) (s : Session) :
    exec (loadDictionary path) s =
      match s.world.readDocument path descriptorsShape readDescriptors? with
      | .ok ds =>
        match Dictionary.ofDescriptors ds with
        | .ok d => (.ok d, s)
        | .error e => (.error (.dictionary e), s)
      | .error e => (.error (.chase e), s) := by
  unfold loadDictionary
  simp only [exec_bind, exec_get]
  cases s.world.readDocument path descriptorsShape readDescriptors? with
  | error e => rfl
  | ok ds =>
    simp only [exec_orFail_ok]
    cases Dictionary.ofDescriptors ds <;> rfl

/-- Saving writes the document, and the world after the attempt is kept, failed or not. -/
theorem exec_save (tf : TempFiles) (output : String) (v : Value) (s : Session) :
    exec (save tf output v) s =
      match (s.world.writeJson tf output v).2 with
      | .ok () =>
        (.ok (), { world := (s.world.writeJson tf output v).1
                   log := s.log ++ [⟨"OUTPUT_WRITTEN", .info, [("path", output)]⟩] })
      | .error e => (.error (.chase e), { s with world := (s.world.writeJson tf output v).1 }) := by
  unfold save
  simp only [exec_bind, exec_get]
  rcases s.world.writeJson tf output v with ⟨w, _ | u⟩ <;> rfl

end Run

/-- What a stage leaves on the files: failing, the world it started from; succeeding with `a`,
that world with the file at `output` holding a document that `Doc a` allows. -/
def Leaves {α : Type} (output : String) (Doc : α → String → Prop) (w : World) :
    Except StageError α → World → Prop
  | .error _, w' => w' = w
  | .ok a, w' => ∃ doc, Doc a doc ∧ Wrote output doc w w'

theorem Leaves.read {α : Type} {output : String} {Doc : α → String → Prop} {w w' : World} {a : α}
    (h : Leaves output Doc w (.ok a) w') : ∃ doc, Doc a doc ∧ w'.read output = .ok (.file doc) := by
  obtain ⟨doc, hdoc, hw⟩ := h
  exact ⟨doc, hdoc, hw.read⟩

/-- The trace at `input`, read and checked. -/
def Loads (w : World) (input : String) (t : Store) : Prop :=
  (w.readDocument input stepsShape readSteps? >>= Store.ofSteps) = .ok t

/-- The dictionary at `path`, read and checked. -/
def LoadsDictionary (w : World) (path : String) (d : Dictionary) : Prop :=
  ∃ ds, w.readDocument path descriptorsShape readDescriptors? = .ok ds ∧ Dictionary.ofDescriptors ds = .ok d

/-- The document numbering writes: the steps of the trace at `input`, numbered. -/
def Numbered (cfg : Config) (w : World) (input : String) (report : Numbering.Report) (doc : String) :
    Prop :=
  ∃ t t', Loads w input t ∧ (Numbering.number cfg t).2 = .ok (t', report) ∧
    doc = documentText (stepsToValue t'.steps.toList)

/-- The document aggregate repair writes: the steps of the trace at `input`, repaired. -/
def Aggregated (cfg : Config) (w : World) (input : String) (report : Aggregate.Report) (doc : String) :
    Prop :=
  ∃ t, Loads w input t ∧ (Aggregate.resolve cfg t).2.2 = report ∧
    doc = documentText (stepsToValue (Aggregate.resolve cfg t).2.1.steps.toList)

/-- The document verbalization writes: the records that explain the trace at `input` with the
dictionary at `predicates`. -/
def Verbalized (cfg : Config) (w : World) (input predicates : String) (report : Prose.Report)
    (doc : String) : Prop :=
  ∃ t d, Loads w input t ∧ LoadsDictionary w predicates d ∧ (explain cfg d t).report = report ∧
    doc = documentText (.arr ((explain cfg d t).records.map Record.toValue))

section Stages

variable {tf : TempFiles} (hfresh : tf.Fresh)
include hfresh

theorem numberFile_leaves (cfg : Config) (input output : String) (s : Session) :
    Leaves output (Numbered cfg s.world input) s.world (exec (numberFile tf cfg input output) s).1
      (exec (numberFile tf cfg input output) s).2.world := by
  unfold numberFile
  rw [exec_staged]
  simp only [exec_bind, exec_loadStore]
  cases hload : s.world.readDocument input stepsShape readSteps? >>= Store.ofSteps with
  | error e => simp [Leaves]
  | ok t =>
    simp only [exec_emitNotices]
    cases hnum : (Numbering.number cfg t).2 with
    | error e => simp [Leaves]
    | ok p =>
      obtain ⟨t', report⟩ := p
      simp only [exec_orFail_ok, exec_save]
      rcases World.writeJson_cases hfresh s.world output (stepsToValue t'.steps.toList) with
        ⟨hok, hw⟩ | ⟨⟨e, herr⟩, hw⟩
      · simp only [hok, exec_pure]
        exact ⟨_, ⟨t, t', hload, hnum, rfl⟩, hw⟩
      · simp [herr, hw, Leaves]

theorem aggregateFile_leaves (cfg : Config) (input output : String) (s : Session) :
    Leaves output (Aggregated cfg s.world input) s.world (exec (aggregateFile tf cfg input output) s).1
      (exec (aggregateFile tf cfg input output) s).2.world := by
  unfold aggregateFile
  rw [exec_staged]
  simp only [exec_bind, exec_loadStore]
  cases hload : s.world.readDocument input stepsShape readSteps? >>= Store.ofSteps with
  | error e => simp [Leaves]
  | ok t =>
    simp only [exec_emitNotices, exec_save]
    rcases World.writeJson_cases hfresh s.world output
      (stepsToValue (Aggregate.resolve cfg t).2.1.steps.toList) with ⟨hok, hw⟩ | ⟨⟨e, herr⟩, hw⟩
    · simp only [hok, exec_pure]
      exact ⟨_, ⟨t, hload, rfl, rfl⟩, hw⟩
    · simp [herr, hw, Leaves]

theorem verbalizeFile_leaves (cfg : Config) (input predicates output : String) (s : Session) :
    Leaves output (Verbalized cfg s.world input predicates) s.world
      (exec (verbalizeFile tf cfg input predicates output) s).1
      (exec (verbalizeFile tf cfg input predicates output) s).2.world := by
  unfold verbalizeFile
  rw [exec_staged]
  simp only [exec_bind, exec_loadStore]
  cases hload : s.world.readDocument input stepsShape readSteps? >>= Store.ofSteps with
  | error e => simp [Leaves]
  | ok t =>
    simp only [exec_loadDictionary]
    cases hds : s.world.readDocument predicates descriptorsShape readDescriptors? with
    | error e => simp [Leaves]
    | ok ds =>
      cases hd : Dictionary.ofDescriptors ds with
      | error e => simp [Leaves, hd]
      | ok d =>
        simp only [hd, exec_emitNotices, exec_save]
        rcases World.writeJson_cases hfresh s.world output
          (.arr ((explain cfg d t).records.map Record.toValue)) with ⟨hok, hw⟩ | ⟨⟨e, herr⟩, hw⟩
        · simp only [hok, exec_pure]
          exact ⟨_, ⟨t, d, hload, ⟨ds, hds, hd⟩, rfl, rfl⟩, hw⟩
        · simp [herr, hw, Leaves]

end Stages

/-- Once the output directory is made, a full run starts from `w₀` and goes as far as its
first failing stage: `Reached … docs w` says it got to the world `w` with the documents `docs`
written, in the order of `stageOutputs`. Each stage starts from the world the one before left. -/
inductive Reached (cfg : Config) (input predicates outDir : String) (w₀ : World) :
    List String → World → Prop
  | start : Reached cfg input predicates outDir w₀ [] w₀
  | numbered {report : Numbering.Report} {doc : String} {w₁ : World} :
      Numbered cfg w₀ input report doc →
      Wrote (Path.join outDir "num_chase_graph.json") doc w₀ w₁ →
      Reached cfg input predicates outDir w₀ [doc] w₁
  | aggregated {doc₁ : String} {w₁ : World} {report : Aggregate.Report} {doc : String} {w₂ : World} :
      Reached cfg input predicates outDir w₀ [doc₁] w₁ →
      Aggregated cfg w₁ (Path.join outDir "num_chase_graph.json") report doc →
      Wrote (Path.join outDir "aggr_chase_graph.json") doc w₁ w₂ →
      Reached cfg input predicates outDir w₀ [doc₁, doc] w₂
  | verbalized {doc₁ doc₂ : String} {w₂ : World} {report : Prose.Report} {doc : String} {w₃ : World} :
      Reached cfg input predicates outDir w₀ [doc₁, doc₂] w₂ →
      Verbalized cfg w₂ (Path.join outDir "aggr_chase_graph.json") predicates report doc →
      Wrote (Path.join outDir "verb_chase_graph.json") doc w₂ w₃ →
      Reached cfg input predicates outDir w₀ [doc₁, doc₂, doc] w₃

section Reads

open World Path

variable {cfg : Config} {input predicates outDir : String} {w₀ : World}

theorem isComponent_outputNames :
    IsComponent "num_chase_graph.json" ∧ IsComponent "aggr_chase_graph.json" ∧
      IsComponent "verb_chase_graph.json" :=
  ⟨⟨by decide, by decide⟩, ⟨by decide, by decide⟩, ⟨by decide, by decide⟩⟩

/-- Where a run got to: the outputs written hold their documents, and the others read as they
did once the output directory was made. -/
theorem Reached.reads {docs : List String} {w : World}
    (h : Reached cfg input predicates outDir w₀ docs w) :
    List.Forall₂ (fun o doc => w.read o = .ok (.file doc)) ((stageOutputs outDir).take docs.length)
      docs ∧
    ∀ o ∈ (stageOutputs outDir).drop docs.length, w.read o = w₀.read o := by
  obtain ⟨hn, ha, hv⟩ := isComponent_outputNames
  induction h with
  | start => simp
  | numbered _ hw =>
    refine ⟨by simpa [stageOutputs] using hw.read, fun o ho => ?_⟩
    simp only [stageOutputs, List.map, List.length, List.drop, List.mem_cons, List.not_mem_nil,
      or_false] at ho
    rcases ho with rfl | rfl
    · exact hw.read_sibling hn ha (by decide)
    · exact hw.read_sibling hn hv (by decide)
  | aggregated _ _ hw ih =>
    obtain ⟨ih₁, ih₂⟩ := ih
    simp only [stageOutputs, List.map, List.length, List.take, List.drop, List.forall₂_cons,
      List.mem_cons, List.not_mem_nil, or_false, forall_eq_or_imp, forall_eq] at ih₁ ih₂ ⊢
    refine ⟨⟨(hw.read_sibling ha hn (by decide)).trans ih₁.1, hw.read, .nil⟩, ?_⟩
    exact (hw.read_sibling ha hv (by decide)).trans ih₂.2
  | verbalized _ _ hw ih =>
    obtain ⟨ih₁, ih₂⟩ := ih
    simp only [stageOutputs, List.map, List.length, List.take, List.drop, List.forall₂_cons,
      List.mem_cons, List.not_mem_nil, or_false, forall_eq] at ih₁ ih₂ ⊢
    refine ⟨⟨(hw.read_sibling hv hn (by decide)).trans ih₁.1,
      (hw.read_sibling hv ha (by decide)).trans ih₁.2.1, hw.read, .nil⟩, by simp⟩

end Reads

section FullRun

variable {tf : TempFiles} (hfresh : tf.Fresh)
include hfresh

theorem runAll_reached (cfg : Config) (input predicates outDir : String) (s : Session) :
    ∃ w₀ docs, MadeDirsFor outDir s.world w₀ ∧
      Reached cfg input predicates outDir w₀ docs (exec (runAll tf cfg input predicates outDir) s).2.world ∧
      ((∃ r, (exec (runAll tf cfg input predicates outDir) s).1 = .ok r) ↔ docs.length = 3) := by
  unfold runAll
  simp only [exec_bind, exec_get, exec_modify]
  have hmade := World.madeDirsFor_makeDirs s.world outDir
  rcases hmd : s.world.makeDirs outDir with ⟨w₀, _ | u⟩ <;> rw [hmd] at hmade <;>
    dsimp only at hmade ⊢
  · exact ⟨w₀, [], hmade, .start, by simp⟩
  simp only [exec_orFail_ok]
  have h₁ := numberFile_leaves hfresh cfg input (Path.join outDir "num_chase_graph.json")
    { world := w₀, log := s.log }
  rcases hx₁ : exec (numberFile tf cfg input (Path.join outDir "num_chase_graph.json"))
    { world := w₀, log := s.log } with ⟨_ | rep₁, s₁⟩ <;> rw [hx₁] at h₁ <;> dsimp only at h₁ ⊢
  · refine ⟨w₀, [], hmade, ?_, by simp⟩
    simp only [Leaves] at h₁
    rw [h₁]
    exact .start
  obtain ⟨doc₁, hdoc₁, hw₁⟩ := h₁
  have r₁ : Reached cfg input predicates outDir w₀ [doc₁] s₁.world := .numbered hdoc₁ hw₁
  have h₂ := aggregateFile_leaves hfresh cfg (Path.join outDir "num_chase_graph.json")
    (Path.join outDir "aggr_chase_graph.json") s₁
  rcases hx₂ : exec (aggregateFile tf cfg (Path.join outDir "num_chase_graph.json")
    (Path.join outDir "aggr_chase_graph.json")) s₁ with ⟨_ | rep₂, s₂⟩ <;> rw [hx₂] at h₂ <;>
    dsimp only at h₂ ⊢
  · refine ⟨w₀, [doc₁], hmade, ?_, by simp⟩
    simp only [Leaves] at h₂
    rwa [h₂]
  obtain ⟨doc₂, hdoc₂, hw₂⟩ := h₂
  have r₂ : Reached cfg input predicates outDir w₀ [doc₁, doc₂] s₂.world := .aggregated r₁ hdoc₂ hw₂
  have h₃ := verbalizeFile_leaves hfresh cfg (Path.join outDir "aggr_chase_graph.json") predicates
    (Path.join outDir "verb_chase_graph.json") s₂
  rcases hx₃ : exec (verbalizeFile tf cfg (Path.join outDir "aggr_chase_graph.json") predicates
    (Path.join outDir "verb_chase_graph.json")) s₂ with ⟨_ | rep₃, s₃⟩ <;> rw [hx₃] at h₃ <;>
    dsimp only at h₃ ⊢
  · refine ⟨w₀, [doc₁, doc₂], hmade, ?_, by simp⟩
    simp only [Leaves] at h₃
    rwa [h₃]
  obtain ⟨doc₃, hdoc₃, hw₃⟩ := h₃
  exact ⟨w₀, [doc₁, doc₂, doc₃], hmade, .verbalized r₂ hdoc₃ hw₃, by simp⟩

/-- A failed stage changes no file. From any session, with temporary names that are fresh:
each stage, failing, leaves the world as it found it, and succeeding, has put the document of its
result in place of the file at its output and changed nothing else; a full run makes the output
directory (only directories, where nothing stood, at the paths the directory text or its parents
name), and then the outputs of the stages before the first failing one hold their documents while
the others read as they did once the directory was made. -/
theorem failed_stage_changes_no_file (cfg : Config) (s : Session) :
    (∀ input output, Leaves output (Numbered cfg s.world input) s.world
      (exec (numberFile tf cfg input output) s).1 (exec (numberFile tf cfg input output) s).2.world) ∧
    (∀ input output, Leaves output (Aggregated cfg s.world input) s.world
      (exec (aggregateFile tf cfg input output) s).1
      (exec (aggregateFile tf cfg input output) s).2.world) ∧
    (∀ input predicates output, Leaves output (Verbalized cfg s.world input predicates) s.world
      (exec (verbalizeFile tf cfg input predicates output) s).1
      (exec (verbalizeFile tf cfg input predicates output) s).2.world) ∧
    (∀ input predicates outDir, ∃ w₀ docs, MadeDirsFor outDir s.world w₀ ∧
      Reached cfg input predicates outDir w₀ docs (exec (runAll tf cfg input predicates outDir) s).2.world ∧
      ((∃ r, (exec (runAll tf cfg input predicates outDir) s).1 = .ok r) ↔ docs.length = 3) ∧
      List.Forall₂ (fun o doc => (exec (runAll tf cfg input predicates outDir) s).2.world.read o =
        .ok (.file doc)) ((stageOutputs outDir).take docs.length) docs ∧
      ∀ o ∈ (stageOutputs outDir).drop docs.length,
        (exec (runAll tf cfg input predicates outDir) s).2.world.read o = w₀.read o) := by
  refine ⟨fun input output => numberFile_leaves hfresh cfg input output s,
    fun input output => aggregateFile_leaves hfresh cfg input output s,
    fun input predicates output => verbalizeFile_leaves hfresh cfg input predicates output s,
    fun input predicates outDir => ?_⟩
  obtain ⟨w₀, docs, hmade, hreached, hok⟩ := runAll_reached hfresh cfg input predicates outDir s
  exact ⟨w₀, docs, hmade, hreached, hok, hreached.reads⟩

end FullRun

/-- The namer that outgrows every name meets the hypothesis, here from the scratch world with
the default configuration. -/
theorem failed_stage_changes_no_file_unseen :
    TempFiles.unseen.Fresh ∧
    (∀ input output, Leaves output (Numbered {} World.scratch input) World.scratch
      (exec (numberFile .unseen {} input output) { world := .scratch }).1
      (exec (numberFile .unseen {} input output) { world := .scratch }).2.world) ∧
    (∀ input output, Leaves output (Aggregated {} World.scratch input) World.scratch
      (exec (aggregateFile .unseen {} input output) { world := .scratch }).1
      (exec (aggregateFile .unseen {} input output) { world := .scratch }).2.world) ∧
    (∀ input predicates output, Leaves output (Verbalized {} World.scratch input predicates)
      World.scratch
      (exec (verbalizeFile .unseen {} input predicates output) { world := .scratch }).1
      (exec (verbalizeFile .unseen {} input predicates output) { world := .scratch }).2.world) ∧
    (∀ input predicates outDir, ∃ w₀ docs, MadeDirsFor outDir World.scratch w₀ ∧
      Reached {} input predicates outDir w₀ docs
        (exec (runAll .unseen {} input predicates outDir) { world := .scratch }).2.world ∧
      ((∃ r, (exec (runAll .unseen {} input predicates outDir) { world := .scratch }).1 = .ok r) ↔
        docs.length = 3) ∧
      List.Forall₂ (fun o doc =>
        (exec (runAll .unseen {} input predicates outDir) { world := .scratch }).2.world.read o =
          .ok (.file doc)) ((stageOutputs outDir).take docs.length) docs ∧
      ∀ o ∈ (stageOutputs outDir).drop docs.length,
        (exec (runAll .unseen {} input predicates outDir) { world := .scratch }).2.world.read o =
          w₀.read o) :=
  ⟨TempFiles.unseen_fresh, failed_stage_changes_no_file TempFiles.unseen_fresh {} { world := .scratch }⟩


end ChaseProse.Pipeline
