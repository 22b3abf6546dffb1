import CellGraph.Proofs.Visit

/-!
# Recording what is said to a compiler

A compiler may change the files and answer as it likes, so what it was asked in a build, and what it answered, is in
general not to be seen in the end. `Builder.recording` keeps a record of it beside the state of the files. The record is
only written: a build that records comes to the same result and leaves the same files and registry
(`Builder.build_recording`).
-/

namespace CellGraph

variable {σ : Type}

/-- A request to a compiler with its answer. -/
structure Exchange where
  request : CompilerRequest
  answer : CompilerAnswer
  deriving DecidableEq, Repr

/-- Whether a compiler wrote modules, and did so with success. -/
def Exchange.wrote (x : Exchange) : Bool :=
  match x.request with
  | .list _ => false
  | .emit _ => x.answer.success

/-- A state of files with the record of a compiler. -/
abbrev Recorded (σ : Type) := σ × List Exchange

/-- A compiler that keeps a record. -/
def Compiler.recording (compile : Compiler σ) : Compiler (Recorded σ) := fun request s =>
  ((compile request s.1).1, (compile request s.1).2, s.2 ++ [⟨request, (compile request s.1).1⟩])

/-- A builder whose compiler keeps a record. -/
def Builder.recording (b : Builder σ) : Builder (Recorded σ) where
  files := b.files.ofPart Prod.fst fun disk s => (disk, s.2)
  workingDirectory := b.workingDirectory
  config := b.config
  compiler := b.compiler.map Compiler.recording
  registers := b.registers

/-- A build whose compiler keeps a record. -/
def Build.recording (b : Build σ) : Build (Recorded σ) where
  toBuilder := b.toBuilder.recording
  roots := b.roots
  id := b.id

/-- A traversal without its record. -/
def Traversal.unrecorded (t : Traversal (Recorded σ)) : Traversal σ where
  disk := t.disk.1
  registry := t.registry
  pending := t.pending
  visited := t.visited
  accepted := t.accepted
  attachedBy := t.attachedBy
  diagnostics := t.diagnostics
  compiledFiles := t.compiledFiles

/-- What builds share, without the record. -/
def BuildState.unrecorded (s : BuildState (Recorded σ)) : BuildState σ := ⟨s.disk.1, s.registry, s.builds⟩

/-! ## Recoveries -/

theorem compileModule_recording (fs : FileSystem σ) (roots : Roots) (compile : Compiler σ) (missing : Resource)
    (typed : Path) (s : Recorded σ) :
    (compileModule (fs.ofPart Prod.fst fun disk s => (disk, s.2)) roots compile.recording missing typed
      s).map id Prod.fst
      = compileModule fs roots compile missing typed s.1 := by
  unfold compileModule Compiler.recording
  cases hlist : compile (.list typed) s.1 with
  | mk listed s₁ =>
    cases hlisted : listed.success with
    | false => simp [hlisted]
    | true =>
      cases hemit : compile (.emit (if listed.files = [] then [typed] else listed.files)) s₁ with
      | mk emitted s₂ =>
        cases hemitted : emitted.success with
        | false => simp [hlisted, hemit, hemitted]
        | true =>
          simp only [hlisted, hemit, hemitted, Bool.not_true, Bool.false_eq_true, if_false]
          rfl

theorem recover_recording (b : Build σ) (r : Resource) (s : Recorded σ) :
    (recover b.recording.files b.config b.roots b.recording.compiler r s).map id Prod.fst =
      recover b.files b.config b.roots b.compiler r s.1 := by
  unfold recover
  cases hcompiler : b.compiler with
  | none =>
    simp only [Build.recording, Builder.recording, hcompiler, Option.map_none]
    rfl
  | some compile =>
    simp only [Build.recording, Builder.recording, hcompiler, Option.map_some]
    rw [← compileModule_recording]
    cases hfile : b.files.isFile (r.path.withExtension b.config.typedExtension) s.1 with
    | false =>
      have hfile' : (b.files.ofPart Prod.fst fun disk (s : Recorded σ) => (disk, s.2)).isFile
        (r.path.withExtension b.config.typedExtension) s = false := hfile
      simp [hfile']
    | true =>
      have hfile' : (b.files.ofPart Prod.fst fun disk (s : Recorded σ) => (disk, s.2)).isFile
        (r.path.withExtension b.config.typedExtension) s = true := hfile
      simp only [hfile', if_true]
      cases compileModule (b.files.ofPart Prod.fst fun disk (s : Recorded σ) => (disk, s.2)) b.roots
          compile.recording r (r.path.withExtension b.config.typedExtension) s with
      | mk result s₁ => cases result <;> rfl

/-! ## Visits -/

namespace Traversal

variable (t : Traversal (Recorded σ)) (b : Build σ)

theorem unrecorded_foldl_enqueue (rs : List Resource) :
    (rs.foldl enqueue t).unrecorded = rs.foldl enqueue t.unrecorded := by
  rw [foldl_enqueue, foldl_enqueue]
  rfl

theorem unrecorded_foldl_adopt (rs : List Resource) : (rs.foldl adopt t).unrecorded = rs.foldl adopt t.unrecorded := by
  rw [foldl_adopt, foldl_adopt]
  rfl

theorem unrecorded_visitAttachment (r : Resource) :
    (b.recording.visitAttachment r t).unrecorded = b.visitAttachment r t.unrecorded := by
  rw [Build.visitAttachment_eq, Build.visitAttachment_eq]
  rfl

theorem unrecorded_expand {r : Resource} {dialect : Dialect} (h : b.config.dialect? r.path = some dialect)
    (text : String) : (b.recording.expand r dialect text t).unrecorded = b.expand r dialect text t.unrecorded := by
  rw [b.recording.expand_eq h, b.expand_eq h]
  rfl

/-- What came of a visit, without its record. -/
def unrecordedResult {α : Type} (x : α × Traversal (Recorded σ)) : α × Traversal σ := (x.1, x.2.unrecorded)

theorem unrecorded_obtainSource (r : Resource) :
    unrecordedResult (b.recording.obtainSource r t) = b.obtainSource r t.unrecorded := by
  unfold Build.obtainSource
  have hread : b.recording.files.readText r.path t.disk = b.files.readText r.path t.unrecorded.disk := rfl
  have hrecover := recover_recording b r t.disk
  rw [hread]
  cases b.files.readText r.path t.unrecorded.disk with
  | ok text => rfl
  | error reason =>
    have hconfig : b.recording.config = b.config := rfl
    have hroots : b.recording.roots = b.roots := rfl
    have hdisk : t.unrecorded.disk = t.disk.1 := rfl
    simp only [hconfig]
    cases b.config.isRecoverable r.path with
    | false => rfl
    | true =>
      simp only [if_true]
      rw [hroots, hdisk, ← hrecover]
      cases recover b.recording.files b.config b.roots b.recording.compiler r t.disk with
      | mk result s₁ =>
        cases result with
        | error e => rfl
        | ok m => cases m <;> rfl

theorem unrecorded_visitImport (r : Resource) :
    unrecordedResult (b.recording.visitImport r t) = b.visitImport r t.unrecorded := by
  unfold Build.visitImport
  rw [← unrecorded_obtainSource]
  cases b.recording.obtainSource r t with
  | mk reading u =>
    cases reading with
    | failed e => rfl
    | missing reason => rfl
    | source text siblings =>
      have hconfig : b.recording.config = b.config := rfl
      simp only [unrecordedResult, hconfig]
      cases hdialect : b.config.dialect? r.path with
      | none => rfl
      | some dialect =>
        simp only [unrecorded_expand _ _ hdialect, unrecorded_foldl_adopt]
        rfl

theorem unrecorded_step (r : Resource) : unrecordedResult (b.recording.step r t) = b.step r t.unrecorded := by
  unfold Build.step
  have hvisited : t.unrecorded.visited = t.visited := rfl
  rw [hvisited]
  split
  · rfl
  · split
    · exact congrArg (Prod.mk none) (unrecorded_visitAttachment (t.visit r.path) b r)
    · exact unrecorded_visitImport (t.visit r.path) b r

/-! ## Builds -/

theorem unrecorded_run (fuel : Nat) : (b.recording.run fuel t).map unrecordedResult = b.run fuel t.unrecorded := by
  induction fuel generalizing t with
  | zero =>
    unfold Build.run
    have hpending : t.unrecorded.pending = t.pending := rfl
    rw [hpending]
    split <;> rfl
  | succ fuel ih =>
    unfold Build.run
    have hpending : t.unrecorded.pending = t.pending := rfl
    rw [hpending]
    cases t.pending with
    | nil => rfl
    | cons r pending =>
      have hstep := unrecorded_step { t with pending } b r
      have hbefore : ({ t with pending } : Traversal (Recorded σ)).unrecorded = { t.unrecorded with pending } := rfl
      rw [hbefore] at hstep
      simp only [← hstep]
      cases b.recording.step r { t with pending } with
      | mk error u =>
        cases error with
        | some e => rfl
        | none => exact ih u

theorem unrecorded_foldl_settleAttachment (rs : List Resource) :
    (rs.foldl b.recording.settleAttachment t).unrecorded = rs.foldl b.settleAttachment t.unrecorded := by
  rw [Build.foldl_settleAttachment, Build.foldl_settleAttachment]
  rfl

theorem unrecorded_settleAttachmentsOf (m : Path × List String) :
    (b.recording.settleAttachmentsOf t m).unrecorded = b.settleAttachmentsOf t.unrecorded m := by
  unfold Build.settleAttachmentsOf
  have haccepted : t.unrecorded.accepted = t.accepted := rfl
  rw [haccepted]
  split
  · exact unrecorded_foldl_settleAttachment ..
  · rfl

theorem unrecorded_settleAttachments :
    (b.recording.settleAttachments t).unrecorded = b.settleAttachments t.unrecorded := by
  have hfold : ∀ (ms : List (Path × List String)) (t : Traversal (Recorded σ)),
      (ms.foldl b.recording.settleAttachmentsOf t).unrecorded = ms.foldl b.settleAttachmentsOf t.unrecorded := by
    intro ms
    induction ms with
    | nil => intro t; rfl
    | cons m ms ih =>
      intro t
      rw [List.foldl_cons, List.foldl_cons, ih, unrecorded_settleAttachmentsOf]
  exact hfold t.attachedBy t

theorem unrecorded_seed (root : Root) (s : Recorded σ) (registry : Registry) :
    (b.recording.seed root s registry).unrecorded = b.seed root s.1 registry := by
  unfold Build.seed Build.enqueueAttachments Build.enqueueImports
  simp only [unrecorded_foldl_enqueue]
  rfl

end Traversal

/-- What came of a build, without the record. -/
def Outcome.unrecorded {α : Type} (o : Outcome (Recorded σ) α) : Outcome σ α :=
  o.map fun x => (x.1, x.2.unrecorded)

/-- A build that records comes to the same result and leaves the same behind. -/
theorem Builder.build_recording (b : Builder σ) (fuel : Nat) (root : Root) (s : BuildState (Recorded σ)) :
    Outcome.unrecorded (b.recording.build fuel root s) = b.build fuel root s.unrecorded := by
  have hseed := Traversal.unrecorded_seed (b.buildOf root s.builds) root s.disk s.registry
  have hrun := Traversal.unrecorded_run
    ((b.recording.buildOf root s.builds).seed root s.disk s.registry) (b.buildOf root s.builds) fuel
  have hbuild : (b.buildOf root s.builds).recording = b.recording.buildOf root s.builds := rfl
  rw [hbuild] at hseed hrun
  rw [hseed] at hrun
  unfold Builder.build
  dsimp only [BuildState.unrecorded]
  rw [← hrun]
  cases (b.recording.buildOf root s.builds).run fuel
      ((b.recording.buildOf root s.builds).seed root s.disk s.registry) with
  | none => rfl
  | some x =>
    obtain ⟨error, t⟩ := x
    cases error with
    | some e => rfl
    | none =>
      have hgraph : (b.recording.buildOf root s.builds).graph
          ((b.recording.buildOf root s.builds).settleAttachments t) =
          (b.buildOf root s.builds).graph ((b.buildOf root s.builds).settleAttachments t.unrecorded) := by
        rw [← Traversal.unrecorded_settleAttachments, hbuild]
        rfl
      simp only [Outcome.unrecorded, Option.map_some, Traversal.unrecordedResult, hgraph]
      rfl

end CellGraph
