import KasterCti.Library.Trace
import KasterCti.PacketCapture.CaptureFiles

/-!
# The life of a capture job

Starts, stops and settle runs of `PacketCaptureService` that interleave.

Results:
1. `captureStep_completed`: no step ends a COMPLETED job.
2. `capture_lifecycle`: where no call passes its check while another one is behind it, at most
   one job is RUNNING, a COMPLETED job stays COMPLETED, and its capture is on disk.
3. `settled_twice`: two starts that overlap, and two settle runs of one job.
-/

namespace KasterCti.PacketCapture

open Trace

/-- The capture of a COMPLETED job is on disk, plain or encrypted. -/
def OnDisk (s : CaptureState) : Prop :=
  ∀ job row, s.jobs[job]? = some row → row.status = .completed →
    s.disk row.filePath = some (.capture (s.captured job)) ∨
      ∃ path ∈ row.encryptedFilePath, s.disk path = some (.encrypted (.capture (s.captured job)))

structure Lifecycle (cfg : CaptureConfig) (actions : List CaptureAction) : Prop where
  one_running : OneRunning (actions.foldl (captureStep cfg) noCaptures)
  completed : ∀ pre post, actions = pre ++ post → ∀ job,
    (pre.foldl (captureStep cfg) noCaptures).statusOf job = some .completed →
      (actions.foldl (captureStep cfg) noCaptures).statusOf job = some .completed
  on_disk : OnDisk (actions.foldl (captureStep cfg) noCaptures)

variable {cfg : CaptureConfig} {s : CaptureState} {n job : Nat} {call : CaptureCall}
  {reply : CaptureReply}

/-! ## Runs -/

theorem next_completed (h : Ordered s) (hcall : s.calls n = some call)
    (hstatus : s.statusOf job = some .completed) :
    (s.next cfg n reply call).statusOf job = some .completed := by
  -- the job that a call ends is RUNNING until then
  have hend : ∀ {j : Nat} {update : CaptureJob → CaptureJob}, call.claim = some (.endJob j) →
      ((s.updateJob j update).setCall n none).statusOf job = some .completed := by
    intro j update hclaim
    have hj : job ≠ j := by
      rintro rfl
      have hrun : s.isRunning job = true := h.right n call hcall _ hclaim
      rw [CaptureState.isRunning, hstatus] at hrun
      cases hrun
    exact (CaptureState.statusOf_updateJob hj).trans hstatus
  cases call with
  | search node input | find node j =>
    simp only [CaptureState.next]
    split <;> exact hstatus
  | interfaces node input => exact hstatus
  | create node input outputPath =>
    simp only [CaptureState.next]
    split
    · obtain ⟨row, hrow, hrowStatus⟩ := Option.map_eq_some_iff.mp hstatus
      refine Option.map_eq_some_iff.mpr ⟨row, ?_, hrowStatus⟩
      exact (CaptureState.insertJob_old (List.getElem?_eq_some_iff.mp hrow).1).trans hrow
    · exact hstatus
  | request j =>
    simp only [CaptureState.next]
    split
    · split <;> exact hstatus
    · exact hstatus
  | refuse j =>
    simp only [CaptureState.next]
    split
    · exact hend rfl
    · exact hstatus
  | lookup node j => exact hstatus
  | stop node j => exact hstatus
  | settle node j filePath phase =>
    cases phase with
    | save encryptedFilePath | fail =>
      simp only [CaptureState.next, CaptureState.settleNext]
      split
      · exact hend rfl
      · exact hstatus
    | status | trailer content | unlink =>
      simp only [CaptureState.next, CaptureState.settleNext]
      split <;> exact hstatus
    | stat => exact hstatus
    | hash => exact hstatus
    | prepare => exact hstatus
    | opening => exact hstatus
    | copy content => exact hstatus

theorem captureStep_completed {action : CaptureAction} (h : Ordered s)
    (hstatus : s.statusOf job = some .completed) :
    (captureStep cfg s action).statusOf job = some .completed := by
  cases action with
  | startCapture node input gates =>
    simp only [captureStep]
    split <;> exact hstatus
  | stopCapture node j => exact hstatus
  | timer node j =>
    simp only [captureStep]
    split <;> exact hstatus
  | sweep node j => exact hstatus
  | next n reply =>
    simp only [captureStep]
    split
    next call hcall => exact next_completed h hcall hstatus
    next => exact hstatus
  | take node j opened =>
    simp only [captureStep, CaptureState.take]
    split
    · split
      · split <;> exact hstatus
      · exact hstatus
    · exact hstatus
  | packets node bytes =>
    simp only [captureStep, CaptureState.packets]
    split
    · split
      · split <;> exact hstatus
      · exact hstatus
    · exact hstatus
  | exit node => exact hstatus

theorem noCaptures_ordered : Ordered noCaptures := by
  refine ⟨?_, ?_, ?_, ?_⟩
  · rintro _ _ ⟨⟩
  · intro i j hi
    obtain ⟨row, hrow, -⟩ := CaptureState.isRunning_iff.mp hi
    cases hrow
  · rintro _ _ _ ⟨⟩
  · rintro _ _ ⟨⟩

theorem noCaptures_filed (cfg : CaptureConfig) : Filed cfg noCaptures := by
  refine ⟨?_, ?_, ?_, ?_, fun _ _ => rfl, ?_, ?_, ?_⟩
  · rintro _ _ _ _ ⟨⟩
  · rintro _ _ ⟨⟩
  · rintro _ _ ⟨⟩
  · rintro _ _ ⟨⟩
  · rintro _ _ _ ⟨⟩
  · rintro _ _ ⟨⟩
  · rintro _ _ _ _ _ ⟨⟩

theorem Filed.onDisk (h : Filed cfg s) : OnDisk s := by
  intro job row hrow hstatus
  have hstored := h.kept job row hrow hstatus
  cases hpath : row.encryptedFilePath with
  | none =>
    rw [hpath] at hstored
    exact .inl hstored
  | some path =>
    rw [hpath] at hstored
    exact .inr ⟨path, rfl, hstored.2.2⟩

/-- A run in which no call passes its check while another one is behind it. -/
theorem capture_lifecycle (cfg : CaptureConfig) (actions : List CaptureAction)
    (h : Along (captureStep cfg) (NoOverlap cfg) noCaptures actions) : Lifecycle cfg actions := by
  have hstep : ∀ s action, NoOverlap cfg s action → Ordered s ∧ Filed cfg s →
      Ordered (captureStep cfg s action) ∧ Filed cfg (captureStep cfg s action) :=
    fun s action hok hs => ⟨captureStep_ordered hs.1 hok, captureStep_filed hs.2 hs.1 hok⟩
  have hstart : Ordered noCaptures ∧ Filed cfg noCaptures := ⟨noCaptures_ordered, noCaptures_filed cfg⟩
  obtain ⟨hordered, hfiled⟩ := h.invariant hstep hstart
  refine ⟨hordered.one_running, ?_, hfiled.onDisk⟩
  rintro pre post rfl job hstatus
  rw [List.foldl_append]
  have hpre := h.take.invariant hstep hstart
  have hkept : ∀ s action, NoOverlap cfg s action →
      (Ordered s ∧ Filed cfg s) ∧ s.statusOf job = some .completed →
        (Ordered (captureStep cfg s action) ∧ Filed cfg (captureStep cfg s action)) ∧
          (captureStep cfg s action).statusOf job = some .completed :=
    fun s action hok hs => ⟨hstep s action hok hs.1, captureStep_completed hs.1.1 hs.2⟩
  exact (h.suffix.invariant hkept ⟨hpre, hstatus⟩).2

instance decidableFree (s : CaptureState) (claim : Claim) : Decidable (Free s claim) :=
  inferInstanceAs (Decidable (∀ n < s.nextCall, ∀ call ∈ s.calls n, call.claim ≠ some claim))

/-- A step can be tested. -/
instance decidableUnclaimed (cfg : CaptureConfig) (s : CaptureState) (reply : CaptureReply) :
    ∀ call, Decidable (Unclaimed cfg s reply call)
  | .search .. => inferInstanceAs (Decidable (_ = true → (∀ row ∈ s.jobs, _) → Free s _))
  | .interfaces .. => .isTrue trivial
  | .create _ _ outputPath => inferInstanceAs (Decidable (_ = true → _ ≠ outputPath ∧
      ∀ row ∈ s.jobs, outputPath ≠ row.filePath ∧ outputPath ≠ cfg.target row.filePath ∧
        cfg.target outputPath ≠ row.filePath ∧ cfg.target outputPath ≠ cfg.target row.filePath))
  | .request _ => .isTrue trivial
  | .refuse _ => .isTrue trivial
  | .lookup .. => .isTrue trivial
  | .stop .. => .isTrue trivial
  | .find _ job => inferInstanceAs (Decidable (_ = true → s.isRunning job = true → Free s _))
  | .settle _ job _ .opening =>
    inferInstanceAs (Decidable (_ = true → ∀ row ∈ s.jobs[job]?, s.running row.nodeId ≠ some job))
  | .settle _ _ _ .status => .isTrue trivial
  | .settle _ _ _ .stat => .isTrue trivial
  | .settle _ _ _ .hash => .isTrue trivial
  | .settle _ _ _ .prepare => .isTrue trivial
  | .settle _ _ _ (.copy _) => .isTrue trivial
  | .settle _ _ _ (.trailer _) => .isTrue trivial
  | .settle _ _ _ .unlink => .isTrue trivial
  | .settle _ _ _ (.save _) => .isTrue trivial
  | .settle _ _ _ .fail => .isTrue trivial

instance decidableNoOverlap (cfg : CaptureConfig) (s : CaptureState) :
    ∀ action, Decidable (NoOverlap cfg s action)
  | .next n reply => inferInstanceAs (Decidable (∀ call ∈ s.calls n, Unclaimed cfg s reply call))
  | .startCapture .. => .isTrue trivial
  | .stopCapture .. => .isTrue trivial
  | .timer .. => .isTrue trivial
  | .sweep .. => .isTrue trivial
  | .take .. => .isTrue trivial
  | .packets .. => .isTrue trivial
  | .exit .. => .isTrue trivial

def exCapture : CaptureConfig :=
  ⟨true, "/cap", "any", 600, "4f1c2d3e-0000", ⟨none, none, true, "local-env", "/"⟩⟩

def exStart (node : Nat) : CaptureAction :=
  .startCapture node ⟨none, some "udp", some 60⟩ ⟨true, some true, true⟩

def exAnswers (startedAt : String) : CaptureReply := ⟨true, ["any", "eth0"], startedAt⟩

/-- A capture of three bytes, which ends by itself. -/
def exCaptured : List CaptureAction :=
  exStart 0 :: List.replicate 3 (.next 0 (exAnswers "2024-05-01T09:00:00.000Z")) ++
    [.take 0 0 true, .next 0 (exAnswers ""), .packets 0 [1, 2, 3], .exit 0]

/-- Its timer settles it, and the sweep comes later. -/
def exSettled : List CaptureAction :=
  exCaptured ++ .timer 0 0 :: List.replicate 10 (.next 1 (exAnswers "")) ++
    [.sweep 0 0, .next 2 (exAnswers "")]

theorem capture_lifecycle_exSettled :
    (exSettled.foldl (captureStep exCapture) noCaptures).statusOf 0 = some .completed ∧
      Lifecycle exCapture exSettled :=
  ⟨by with_unfolding_all decide,
    capture_lifecycle exCapture exSettled (by with_unfolding_all decide)⟩

/-- Two starts that have both passed their check. -/
def exTwoStarts : List CaptureAction :=
  [exStart 0, exStart 0, .next 0 (exAnswers ""), .next 1 (exAnswers "")] ++
    List.replicate 2 (.next 0 (exAnswers "2024-05-01T09:00:00.000Z")) ++
    List.replicate 2 (.next 1 (exAnswers "2024-05-01T09:00:00.001Z"))

/-- The timer of the start settles the job, and a stop that still finds it RUNNING sets another
timer. The second run hashes the capture while the first one encrypts it. -/
def exTwoSettles : List CaptureAction :=
  exCaptured ++ .timer 0 0 :: List.replicate 3 (.next 1 (exAnswers "")) ++
    [.stopCapture 0 0, .next 2 (exAnswers ""), .next 2 ⟨false, [], ""⟩, .timer 0 0] ++
    List.replicate 4 (.next 3 (exAnswers "")) ++ List.replicate 7 (.next 1 (exAnswers ""))

/-- The second run truncates the output and finds no capture any more. -/
def exTruncated : List CaptureAction := exTwoSettles ++ List.replicate 2 (.next 3 (exAnswers ""))

def exLost : CaptureState := exTruncated.foldl (captureStep exCapture) noCaptures

theorem settled_twice :
    ¬ OneRunning (exTwoStarts.foldl (captureStep exCapture) noCaptures) ∧
      (exTwoSettles.foldl (captureStep exCapture) noCaptures).statusOf 0 = some .completed ∧
      ¬ OnDisk exLost ∧
      (captureStep exCapture exLost (.next 3 (exAnswers ""))).statusOf 0 = some .failed := by
  refine ⟨?_, by with_unfolding_all decide, ?_, by with_unfolding_all decide⟩
  · intro h
    exact absurd (h 0 1 (by decide) (by decide)) (by decide)
  · intro h
    have hrow : exLost.jobs[0]? = some ⟨0, .completed, ⟨"any", "udp", 60⟩,
        "/cap/capture-2024-05-01T09-00-00-000Z-4f1c2d3e.pcap",
        some "/cap/capture-2024-05-01T09-00-00-000Z-4f1c2d3e.pcap.enc"⟩ := by
      with_unfolding_all decide
    rcases h 0 _ hrow rfl with hplain | ⟨path, hpath, hencrypted⟩
    · exact absurd hplain (by with_unfolding_all decide)
    · obtain rfl := Option.some.inj hpath
      exact absurd hencrypted (by with_unfolding_all decide)

end KasterCti.PacketCapture
