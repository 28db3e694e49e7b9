import Scenario.Proofs.Shows

/-!
# Transcripts

Everything that a run tells its recorder, in the order in which it is told, whatever the recorder
makes of it. A recorder that also keeps a transcript answers as before, so nothing that a run does
depends on it: `Recorder.transcribed_shows`.
-/

namespace Scenario

/-- **A write** of a run to its host. -/
inductive HostWrite where
  | opened (opening : ReportOpening)
  | detail (detail : Detail)
  | closed (closing : ReportClosing)
  | outcome (id : Int) (success : Bool)

/-- The records of a transcribed run. -/
structure Transcript (σ : Type) where
  records : σ
  /-- What the run has written, also what was not kept. -/
  writes : List HostWrite := []
  /-- What the watcher has been told. -/
  notices : List Notice := []

variable {ρ σ : Type}

/-- A write is put behind the elder ones. -/
def Transcript.wrote (transcript : Transcript σ) (write : HostWrite) {α : Type} (answer : α × σ) :
    α × Transcript σ :=
  (answer.1, { transcript with
    records := answer.2, writes := transcript.writes ++ [write] })

/-- A recorder that also keeps a transcript. -/
def Recorder.transcribed (r : Recorder σ) : Recorder (Transcript σ) where
  createReport opening transcript :=
    transcript.wrote (.opened opening) (r.createReport opening transcript.records)
  updateReport closing transcript :=
    transcript.wrote (.closed closing) (r.updateReport closing transcript.records)
  createDetail detail transcript :=
    transcript.wrote (.detail detail) (r.createDetail detail transcript.records)
  updateCaseState id success transcript :=
    transcript.wrote (.outcome id success) (r.updateCaseState id success transcript.records)
  note notice transcript := { transcript with
    records := r.note notice transcript.records, notices := transcript.notices ++ [notice] }

/-- A transcribed world. -/
abbrev World.transcribed (w : World ρ σ) : World ρ (Transcript σ) :=
  w.recordedBy w.toRecorder.transcribed

theorem Recorder.transcribed_shows (r : Recorder σ) :
    r.Shows r.transcribed Transcript.records :=
  ⟨fun _ _ => rfl, fun _ _ => rfl, fun _ _ => rfl, fun _ _ _ => rfl, fun _ _ => rfl⟩

/-- What a run of a case leaves in the records, however it ends. -/
def recordsOf : Except (BrokenRun σ) (Finished ρ σ) → σ
  | .ok f => f.records
  | .error b => b.records

end Scenario
