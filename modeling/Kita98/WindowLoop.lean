import Kita98.CountedLoops
import Kita98.LabelledTrace
import Kita98.Render

/-!
# The event loop of the window

While nothing else is to be done the window takes 10000 steps of the machine and
asks to be redrawn; a redraw renders the planes as they are.  Whatever the order of
the events, the window shows states of one run of the machine, and the last one
for good once the machine has halted.
-/

namespace Kita98

open Exec VideoController

variable {H : HostFiles}

/-! ## Pictures -/

abbrev Picture := Frame (640 * 400 * 4)

/-- The colours of all pixels. -/
def pictureOf (video : VideoController) : Picture := fun i =>
  video.pixelColor ⟨i / 4, by have := i.isLt; unfold pixels; omega⟩ ⟨i % 4, by omega⟩

/-- Rendering leaves nothing of the old frame. -/
theorem render_eq (video : VideoController) (frame : Picture) :
    video.render frame = .ok ((), pictureOf video) := by
  have hsize : pixels * 4 ≤ 640 * 400 * 4 := Nat.le_refl _
  rcases video.render_paints hsize frame with ⟨picture, hrender, hpainted⟩
  have hall : picture = pictureOf video := by
    funext i
    have hpixel : i.val / 4 < pixels := by
      have hi := i.isLt
      unfold pixels
      omega
    have hplace : i.val = i.val / 4 * 4 + i.val % 4 := by omega
    exact hpainted ⟨i / 4, hpixel⟩ ⟨i % 4, Nat.mod_lt _ (by omega)⟩ i hplace hpixel
  rw [hrender, hall]

/-! ## Events -/

inductive WindowEvent where
  | closeRequested
  | aboutToWait
  /-- Whether the host's `pixels.render()` succeeds. -/
  | redrawRequested (presents : Bool)
  | other
  deriving DecidableEq, Repr

structure Window (H : HostFiles) where
  rt : Runtime H
  frame : Picture
  /-- What has been on the screen, latest first. -/
  shown : List Picture
  redraws : ℕ
  exits : Bool

/-- A step, and whether it ends the loop over the steps. -/
def stepRound : Running H (Option Error) := do
  match ← step with
  | .error e => return some e
  | .ok _ => return none

def stepsPerWait : ℕ := 10000

def onRuntime {α : Type} (running : Running H α) : Exec Fault (Window H) α :=
  Exec.focus (fun w => w.rt) (fun rt w => { w with rt := rt }) running

def onFrame {α : Type} (drawing : Exec Fault Picture α) : Exec Fault (Window H) α :=
  Exec.focus (fun w => w.frame) (fun frame w => { w with frame := frame }) drawing

def exitLoop : Exec Fault (Window H) Unit := Exec.update fun w => { w with exits := true }

def handleEvent (event : WindowEvent) : Exec Fault (Window H) Unit :=
  match event with
  | .closeRequested => exitLoop
  | .aboutToWait => do
      let failed ← onRuntime (Exec.rounds stepRound stepsPerWait)
      match failed with
      | some _ => exitLoop
      | none => Exec.update fun w => { w with redraws := w.redraws + 1 }
  | .redrawRequested presents => do
      let video ← Exec.read fun w => w.rt.bus.video
      onFrame video.render
      if presents then Exec.update fun w => { w with shown := w.frame :: w.shown }
      else exitLoop
  | .other => pure ()

def Handles (event : WindowEvent) (w w' : Window H) : Prop := handleEvent event w = .ok ((), w')

/-! ## Counted steps -/

/-- The state after so many steps. -/
inductive After (start : Runtime H) : ℕ → Runtime H → Prop
  | zero : After start 0 start
  | succ {n : ℕ} {rt rt' : Runtime H} {result : Except Error StepResult}
      (hafter : After start n rt) (hstep : step rt = .ok (result, rt')) : After start (n + 1) rt'

namespace After

variable {start rt rt' : Runtime H} {n k : ℕ}

theorem run (hafter : After start n rt) : ∃ past, Run start past rt ∧ past.length = n := by
  induction hafter with
  | zero => exact ⟨[], .start, rfl⟩
  | @succ n rt rt' result _ hstep ih =>
      rcases ih with ⟨past, hrun, hlength⟩
      exact ⟨rt :: past, hrun.step hstep, congrArg Nat.succ hlength⟩

theorem unique (hafter : After start n rt) (hafter' : After start n rt') : rt = rt' := by
  induction hafter generalizing rt' with
  | zero =>
      cases hafter'
      rfl
  | succ _ hstep ih =>
      cases hafter' with
      | succ hbefore hstep' =>
          rw [← ih hbefore, hstep] at hstep'
          cases hstep'
          rfl

/-- A halted machine stays as it is. -/
theorem halted (hafter : After start k rt) (hhalted : rt.cpu.halted = true)
    (hlater : After start n rt') (hle : k ≤ n) : rt' = rt := by
  induction hlater with
  | zero =>
      obtain rfl : k = 0 := Nat.le_zero.mp hle
      exact (hafter.unique .zero).symm
  | @succ n mid next result hbefore hstep ih =>
      rcases Nat.lt_or_eq_of_le hle with hlt | rfl
      · rw [ih (Nat.le_of_lt_succ hlt), step_of_halted hhalted] at hstep
        cases hstep
        rfl
      · exact (hbefore.succ hstep).unique hafter

theorem rounds
    {m : ℕ} {failed : Option Error} (hafter : After start n rt)
    (hrounds : Exec.rounds stepRound m rt = .ok (failed, rt')) :
    ∃ j ≤ m, After start (n + j) rt' ∧ (failed = none → j = m) := by
  induction m generalizing n rt with
  | zero =>
      cases hrounds
      exact ⟨0, Nat.le_refl 0, hafter, fun _ => rfl⟩
  | succ m ih =>
      rcases bind_eq_ok hrounds with ⟨left, next, hround, hrest⟩
      rcases bind_eq_ok hround with ⟨result, mid, hstep, hleft⟩
      cases result with
      | error e =>
          cases hleft
          cases hrest
          exact ⟨1, Nat.succ_le_succ (Nat.zero_le m), hafter.succ hstep, fun hnone => nomatch hnone⟩
      | ok result =>
          cases hleft
          rcases ih (hafter.succ hstep) hrest with ⟨j, hj, hlast, hall⟩
          refine ⟨j + 1, Nat.succ_le_succ hj, ?_, fun hnone => congrArg Nat.succ (hall hnone)⟩
          rw [Nat.add_comm j 1, ← Nat.add_assoc]
          exact hlast

end After

/-! ## What the window has shown -/

/-- How often the loop has been about to wait. -/
def waits : List (WindowEvent × Window H) → ℕ
  | [] => 0
  | (.aboutToWait, _) :: past => waits past + 1
  | _ :: past => waits past

/-- The waits in front of each picture, latest first. -/
def shownAt : List (WindowEvent × Window H) → List ℕ
  | [] => []
  | (.redrawRequested true, _) :: past => waits past :: shownAt past
  | _ :: past => shownAt past

/-- The picture of the state behind so many waits. -/
def PictureAfter (start : Runtime H) (picture : Picture) (k : ℕ) : Prop :=
  ∃ rt, After start (k * stepsPerWait) rt ∧ picture = pictureOf rt.bus.video

/-- The machine has run on, and while the loop goes on each wait is 10000 steps
and each picture the one of its moment. -/
structure Showing (start : Window H) (past : List (WindowEvent × Window H)) (w : Window H) :
    Prop where
  ran : ∃ n ≤ waits past * stepsPerWait, After start.rt n w.rt ∧
    (w.exits = false → n = waits past * stepsPerWait)
  pictures : w.exits = false → List.Forall₂ (PictureAfter start.rt) w.shown (shownAt past)
  redraws : w.exits = false → w.redraws = start.redraws + waits past

theorem Showing.of_exits
    {start w : Window H} {past : List (WindowEvent × Window H)} {n : ℕ}
    (hn : n ≤ waits past * stepsPerWait) (hafter : After start.rt n w.rt)
    (hexits : w.exits = true) : Showing start past w := by
  refine ⟨⟨n, hn, hafter, ?_⟩, ?_, ?_⟩
  all_goals
    intro hexit
    rw [hexits] at hexit
    cases hexit

theorem showing_of_trace
    {start w : Window H} {past : List (WindowEvent × Window H)} (hfresh : start.shown = [])
    (htrace : LabelledTrace Handles start past w) : Showing start past w := by
  induction htrace with
  | start =>
      constructor
      · exact ⟨0, Nat.zero_le _, .zero, fun _ => (Nat.zero_mul _).symm⟩
      · intro _
        rw [hfresh]
        exact .nil
      · intro _
        rfl
  | @next past event w w' _ hstep ih =>
      rcases ih.ran with ⟨n, hn, hafter, hexact⟩
      cases event with
      | closeRequested =>
          cases hstep
          exact .of_exits hn hafter rfl
      | other =>
          cases hstep
          exact ⟨ih.ran, ih.pictures, ih.redraws⟩
      | aboutToWait =>
          rcases bind_eq_ok hstep with ⟨failed, mid, hrounds, hlast⟩
          rcases focus_eq_ok hrounds with ⟨rt, hrt, rfl⟩
          rcases hafter.rounds hrt with ⟨j, hj, hran, hall⟩
          have hbound : n + j ≤ waits ((.aboutToWait, w) :: past) * stepsPerWait := by
            change n + j ≤ (waits past + 1) * stepsPerWait
            rw [Nat.succ_mul]
            omega
          cases failed with
          | some e =>
              cases hlast
              exact .of_exits hbound hran rfl
          | none =>
              cases hlast
              refine ⟨⟨n + j, hbound, hran, ?_⟩, ih.pictures, ?_⟩
              · intro hexit
                rw [hexact hexit, hall rfl]
                exact (Nat.succ_mul _ _).symm
              · intro hexit
                change w.redraws + 1 = start.redraws + (waits past + 1)
                rw [ih.redraws hexit, Nat.add_assoc]
      | redrawRequested presents =>
          rcases bind_eq_ok hstep with ⟨video, mid, hvideo, hrest⟩
          cases hvideo
          rcases bind_eq_ok hrest with ⟨u, drawn, hdrawn, hlast⟩
          rcases focus_eq_ok hdrawn with ⟨frame, hframe, rfl⟩
          rw [render_eq] at hframe
          cases hframe
          cases presents with
          | false =>
              cases hlast
              exact .of_exits hn hafter rfl
          | true =>
              cases hlast
              refine ⟨⟨n, hn, hafter, hexact⟩, ?_, ih.redraws⟩
              intro hexit
              have hnow : PictureAfter start.rt (pictureOf w.rt.bus.video) (waits past) := by
                refine ⟨w.rt, ?_, rfl⟩
                rw [← hexact hexit]
                exact hafter
              exact .cons hnow (ih.pictures hexit)

/-- In every order of events, the window's machine is one run of at most 10000 steps
a wait; while the loop goes on it is exactly so many, every wait has asked for a redraw,
every picture is the one of the state at its moment, and behind a halt they are all the
same. -/
theorem window_shows_run
    {start w : Window H} {past : List (WindowEvent × Window H)} (hfresh : start.shown = [])
    (htrace : LabelledTrace Handles start past w) :
    Showing start past w ∧
      ∀ k rt, After start.rt k rt → rt.cpu.halted = true → w.exits = false →
        List.Forall₂ (fun picture j => k ≤ j * stepsPerWait → picture = pictureOf rt.bus.video)
          w.shown (shownAt past) := by
  have hshowing := showing_of_trace hfresh htrace
  refine ⟨hshowing, ?_⟩
  intro k rt hafter hhalted hexit
  apply (hshowing.pictures hexit).imp
  rintro picture j ⟨now, hnow, rfl⟩ hle
  rw [hafter.halted hhalted hnow hle]

/-! ## A machine that plots and halts -/

/-- A byte for the first plane and INT 20h, in one block. -/
def plottingRuntime : Runtime HostFiles.none :=
  { delayRuntime with
    cpu := { Interpreter.new with regs := Regs.new.setSeg .DS 0xA800 }
    bus := { Bus.new none (fun _ => 0) with
      mem := Memory.new.loadBytes 0 [0xC6, 0x06, 0x00, 0x00, 0x80, 0xCD, 0x20] } }

def plottingWindow : Window HostFiles.none where
  rt := plottingRuntime
  frame := fun _ => 0
  shown := []
  redraws := 0
  exits := false

/-- The first pixel has turned blue. -/
theorem plottingRuntime_step :
    ∃ rt, step plottingRuntime = .ok (.ok .proceed, rt) ∧ rt.cpu.halted = true ∧
      pictureOf rt.bus.video 2 ≠ pictureOf plottingRuntime.bus.video 2 := by
  have hfacts : (step plottingRuntime).toOption.map (fun last =>
      (last.1.toOption, last.2.cpu.halted,
        decide (pictureOf last.2.bus.video 2 ≠ pictureOf plottingRuntime.bus.video 2))) =
      some (some .proceed, true, true) := by
    decide +kernel
  rcases exists_of_map _ hfacts with ⟨⟨result, rt⟩, hstep, hlast⟩
  simp only [Prod.mk.injEq, decide_eq_true_iff] at hlast
  rcases hlast with ⟨hproceeds, hhalted, hpixel⟩
  rw [eq_ok_of_toOption hproceeds] at hstep
  exact ⟨rt, hstep, hhalted, hpixel⟩

theorem rounds_of_halted {rt : Runtime H} (hhalted : rt.cpu.halted = true) (n : ℕ) :
    Exec.rounds stepRound n rt = .ok (none, rt) := by
  have hround : stepRound rt = .ok (none, rt) := bind_ok (step_of_halted hhalted)
  induction n with
  | zero => rfl
  | succ n ih => rw [rounds_of_none n hround, ih]

theorem handles_wait
    {w : Window H} {rt : Runtime H}
    (hrounds : Exec.rounds stepRound stepsPerWait w.rt = .ok (none, rt)) :
    Handles .aboutToWait w { w with rt := rt, redraws := w.redraws + 1 } := by
  have hruns : onRuntime (Exec.rounds stepRound stepsPerWait) w = .ok (none, { w with rt := rt }) :=
    focus_ok hrounds
  unfold Handles handleEvent
  simp only
  rw [bind_ok hruns]
  rfl

theorem handles_redraw (w : Window H) :
    Handles (.redrawRequested true) w
      { w with
        frame := pictureOf w.rt.bus.video
        shown := pictureOf w.rt.bus.video :: w.shown } := by
  have hdraws : onFrame w.rt.bus.video.render w =
      .ok ((), { w with frame := pictureOf w.rt.bus.video }) :=
    focus_ok (render_eq _ _)
  unfold Handles handleEvent
  simp only
  rw [bind_ok (read_apply _ w), bind_ok hdraws]
  rfl

/-- Two waits, a picture behind each: both show the state of the halt. -/
theorem window_shows_run_plotted :
    ∃ past w halted, LabelledTrace Handles plottingWindow past w ∧
      After plottingRuntime 1 halted ∧ halted.cpu.halted = true ∧
        pictureOf halted.bus.video 2 ≠ pictureOf plottingRuntime.bus.video 2 ∧
          Showing plottingWindow past w ∧
            List.Forall₂ (fun picture j => 1 ≤ j * stepsPerWait →
              picture = pictureOf halted.bus.video) w.shown [2, 1] := by
  rcases plottingRuntime_step with ⟨halted, hstep, hhalted, hpixel⟩
  have hround : stepRound plottingRuntime = .ok (none, halted) := bind_ok hstep
  have hfirst : Exec.rounds stepRound stepsPerWait plottingRuntime = .ok (none, halted) :=
    (rounds_of_none 9999 hround).trans (rounds_of_halted hhalted 9999)
  have hwait : Handles .aboutToWait plottingWindow
      { plottingWindow with rt := halted, redraws := plottingWindow.redraws + 1 } :=
    handles_wait hfirst
  have hone := (LabelledTrace.single hwait).next (handles_redraw _)
  have hagain := @handles_wait _
    { plottingWindow with
      rt := halted
      frame := pictureOf halted.bus.video
      shown := [pictureOf halted.bus.video]
      redraws := plottingWindow.redraws + 1 } halted (rounds_of_halted hhalted stepsPerWait)
  have htrace := (hone.next hagain).next (handles_redraw _)
  have hafter : After plottingRuntime 1 halted := After.zero.succ hstep
  have hshows := window_shows_run rfl htrace
  exact ⟨_, _, halted, htrace, hafter, hhalted, hpixel, hshows.1,
    hshows.2 1 halted hafter hhalted rfl⟩

end Kita98
