import RuleRaven.Store.Mapping
import RuleRaven.System.Walk
import RuleRaven.System.Workers

namespace RuleRaven

open Framework Kube Controller Mapping

/-- No time is part of a fingerprint. -/
theorem contentHash_toDocument (H : Hasher) (s : Snapshot) :
    contentHash H s.toDocument = contentHash H s := by
  have hcanonical : canonical s.toDocument = canonical s := by
    simp only [canonical, Snapshot.toDocument, List.map_map, Option.map_map]
    rfl
  rw [contentHash, contentHash, hcanonical]

/-- A new row of the snapshot collection is the document of the snapshot that is upserted. -/
theorem Store.Wrote.mem_snapshots {s t : Store} {op : StoreOp} (h : s.Wrote op t)
    {row : SnapshotRow} (hrow : row ∈ t.snapshots.rows) :
    row ∈ s.snapshots.rows ∨ ∃ incidentID snapshot, op = .snapshotsUpsert incidentID snapshot ∧
      row = ⟨incidentID, snapshot.toDocument⟩ := by
  cases h with
  | @snapshot incidentID snapshot snapshots hinsert =>
    obtain ⟨-, -, hrows⟩ := Table.insert_eq_some.mp hinsert
    have hrow : row ∈ snapshots.rows := hrow
    rw [hrows, List.mem_append, List.mem_singleton] at hrow
    exact hrow.imp_right fun heq => ⟨incidentID, snapshot, rfl, heq⟩
  | commit hcommitted =>
    rw [hcommitted.snapshots] at hrow
    exact Or.inl hrow
  | _ => exact Or.inl hrow

/-- Every row is the document of a snapshot that carries its own fingerprint. -/
def Fingerprinted (H : Hasher) (s : Store) : Prop :=
  ∀ row ∈ s.snapshots.rows, ∃ snapshot : Snapshot,
    snapshot.contentHash = contentHash H snapshot ∧ row.snapshot = snapshot.toDocument

section Steps

variable {H : Hasher} {s t : Store} {op : StoreOp}

theorem Fingerprinted.wrote (hs : Fingerprinted H s) {task : Task} (hop : task.Issues H op)
    (h : s.Wrote op t) : Fingerprinted H t := by
  intro row hrow
  rcases h.mem_snapshots hrow with hold | ⟨incidentID, snapshot, rfl, rfl⟩
  · exact hs row hold
  · cases hop with
    | dispatch d h => exact h.elim
    | reconcile hissues =>
      cases hissues with
      | insertSnapshot _ hp => exact ⟨_, hp.judged.hash, rfl⟩

theorem runs_fingerprinted {ι : Type} {tasks : ι → Task → Prop} {time : Time}
    {c : Framework.Config ι Op Op.Reply Unit (World ι)}
    (hrun : Runs H tasks (fun _ _ _ => True) (initial ι time) c) :
    Fingerprinted H c.state.store := by
  have hstart : ∀ clock, Fingerprinted H ({ clock := clock } : World ι).store :=
    fun _ _ hrow => (List.not_mem_nil hrow).elim
  have hstep : ∀ (i : ι) (task : Task) (v : World ι) (op : StoreOp) (reply : Except Err op.Out)
      (after : Store), tasks i task → task.Issues H op → True → Fingerprinted H v.store →
      StoreAnswer v.store op reply after → Fingerprinted H after :=
    fun _ _ _ _ _ _ _ hop _ hv hanswer => hv.wrote hop hanswer.wrote
  exact runs_issued (fun clock => hstart clock) (fun _ _ _ hw => hw) (fun _ _ hw _ => hw)
    (fun _ _ _ _ _ _ hw => hw) hstep hrun

end Steps

variable {ι : Type}

/-- Along every run, whoever wrote it and for whatever reason, a stored snapshot verifies: read
back from its BSON document, the payload has the fingerprint that the document carries. -/
theorem stored_snapshots_verify (H : Hasher) (tasks : ι → Task → Prop) (t : Time)
    (c : Framework.Config ι Op Op.Reply Unit (World ι))
    (hrun : Runs H tasks (fun _ _ _ => True) (initial ι t) c) :
    ∀ row ∈ c.state.store.snapshots.rows, ∃ (snapshot : Snapshot) (document : SnapshotDocument),
      snapshotCodec.read (snapshotCodec.write (snapshotToDocument row.incidentID snapshot none)) =
        some document ∧
      snapshotFromDocument document = row ∧
      document.contentHash = contentHash H (snapshotFromDocument document).snapshot := by
  have hinv : Fingerprinted H c.state.store := runs_fingerprinted hrun
  intro row hrow
  obtain ⟨snapshot, hhash, hdocument⟩ := hinv row hrow
  have hback := snapshot_read_back row.incidentID snapshot none
  obtain ⟨document, hread, hfrom⟩ := Option.map_eq_some_iff.mp hback
  have hrow : snapshotFromDocument document = row := by rw [hfrom, ← hdocument]
  have hfield : document.contentHash = snapshot.contentHash := by
    rw [snapshotCodec.read_write] at hread
    cases hread
    rfl
  refine ⟨snapshot, document, hread, hrow, ?_⟩
  rw [hfield, hhash, hrow, hdocument, contentHash_toDocument]

namespace Scenario

open Controller.Scenario

/-- A Warning Event, seen once at noon. -/
def warningCall (seconds : Int) : Call :=
  ⟨⟨"Event", "ns", "n", "u"⟩, world seconds (some (.event
    { metadata := metadata, type := "Warning", reason := "FailedMount", message := "no volume",
      involvedUID := "v", count := 1, eventTime := noon }))⟩

/-- The Event falls quiet; a job fails and is deleted. -/
def producers : List Turn :=
  reconciles 0 20 (warningCall 0) ++ [.wait 700000000000] ++ reconciles 1 20 (warningCall 700) ++
    reconciles 2 20 (jobCall 700 1) ++ reconciles 3 20 (goneJobCall 700)

end Scenario

open Scenario Controller.Scenario

/-- Each way to come to a snapshot leaves a row. -/
theorem producers_verify :
    ∃ c : Crew,
      Runs checksumHasher (fun _ _ => True) (fun _ _ _ => True) (initial Nat noon) c ∧
      c.state.store.snapshots.rows.map (fun row => (row.snapshot.source.kind,
        row.snapshot.conditions.map Condition.type)) =
        [("Event", []), ("Event", ["QuietPeriodElapsed"]), ("Job", []), ("Job", ["Deleted"])] ∧
      ∀ row ∈ c.state.store.snapshots.rows, ∃ (snapshot : Snapshot) (document : SnapshotDocument),
        snapshotCodec.read
            (snapshotCodec.write (snapshotToDocument row.incidentID snapshot none)) =
          some document ∧
        snapshotFromDocument document = row ∧
        document.contentHash =
          contentHash checksumHasher (snapshotFromDocument document).snapshot := by
  have hfacts : (play checksumHasher (fun _ _ => True) (fun _ _ _ => true) producers
      (initial Nat noon)).any (fun c => decide (c.state.store.snapshots.rows.map (fun row =>
        (row.snapshot.source.kind, row.snapshot.conditions.map Condition.type)) =
        [("Event", []), ("Event", ["QuietPeriodElapsed"]), ("Job", []), ("Job", ["Deleted"])])) =
      true := by
    decide +kernel
  obtain ⟨c, hplay, hrows⟩ := (Option.any_eq_true _ _).mp hfacts
  have hrun := steps_restrict_mono (fun _ _ _ _ => trivial) (runs_of_play hplay)
  exact ⟨c, hrun, of_decide_eq_true hrows,
    stored_snapshots_verify checksumHasher (fun _ _ => True) noon c hrun⟩

end RuleRaven
