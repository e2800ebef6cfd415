import Mathlib.Data.Finmap
import VBox.Viewer.Picture

/-!
# Viewer.App

The viewer's table of windows (`crates/client/src/viewer/app.rs`), as far as the frame buffers go:
which messages create, resize, draw on and drop them. What a message does to the host's window, the
input state and the clipboard is left out; it reads the frame buffers and does not change them.
-/

namespace VBox

open Raster

structure Viewer where
  windows : Finmap fun _ : UInt64 => FrameBuffer
  retiredWindowIds : Finset UInt64

def initialHiddenWindowSize : Nat := 1

def FrameBuffer.resizeToRemoteSize (f : FrameBuffer) (width height : Nat) :
    Except Fault FrameBuffer :=
  f.resizeForRemoteSize (max width 1) (max height 1)

namespace Viewer

def empty : Viewer := { windows := ∅, retiredWindowIds := ∅ }

/-- A second `Created` for a window is a resize, and takes it out of retirement. -/
def createWindow (v : Viewer) (id : UInt64) (width height : Nat) : Except Fault Viewer :=
  match v.windows.lookup id with
  | some frame => do
    let frame ← frame.resizeToRemoteSize (max width 1) (max height 1)
    return {
      windows := v.windows.insert id frame
      retiredWindowIds := v.retiredWindowIds.erase id }
  | none => do
    let frame ← FrameBuffer.new initialHiddenWindowSize initialHiddenWindowSize
    let frame ← frame.resizeToRemoteSize (max width 1) (max height 1)
    return { v with windows := v.windows.insert id frame }

def activeWindowCount (v : Viewer) : Nat := (v.windows.keys \ v.retiredWindowIds).card

def handleRemoteWindowEvent (v : Viewer) : WindowEvent → Except Fault Viewer
  | .created id geom _ _ => v.createWindow id (max geom.w.toNat 1) (max geom.h.toNat 1)
  | .configured id geom =>
    match v.windows.lookup id with
    | some frame => do
      let frame ← frame.resizeToRemoteSize (max geom.w.toNat 1) (max geom.h.toNat 1)
      return { v with windows := v.windows.insert id frame }
    | none => .ok v
  | .destroyed id =>
    -- the last window is hidden and kept for a replacement
    if v.activeWindowCount ≤ 1 ∧ id ∈ v.windows then
      .ok { v with retiredWindowIds := insert id v.retiredWindowIds }
    else
      .ok { windows := v.windows.erase id, retiredWindowIds := v.retiredWindowIds.erase id }
  | .titleChanged _ _ | .minimized _ | .moveRequested _ | .fullscreenChanged _ _ => .ok v

/-- A tile of a window that does not exist is dropped, and so is one that is rejected. -/
def handleMessage (v : Viewer) : Message → Except Fault Viewer
  | .windowEvent event => v.handleRemoteWindowEvent event
  | .frameTile tile =>
    match v.windows.lookup tile.id with
    | none => .ok v
    | some frame =>
      match frame.applyTile tile with
      | .error (.rejected _) => .ok v
      | .error (.panicked fault) => .error fault
      | .ok (frame, _) => .ok { v with windows := v.windows.insert tile.id frame }
  | _ => .ok v

def handleAll (v : Viewer) (msgs : List Message) : Except Fault Viewer := msgs.foldlM handleMessage v

theorem handleAll_cons {v v' : Viewer} {msg : Message} {msgs : List Message}
    (h : v.handleMessage msg = .ok v') : v.handleAll (msg :: msgs) = v'.handleAll msgs := by
  rw [handleAll, List.foldlM_cons, h]
  rfl

theorem handleAll_append {v v' : Viewer} {msgs msgs' : List Message}
    (h : v.handleAll msgs = .ok v') : v.handleAll (msgs ++ msgs') = v'.handleAll msgs' := by
  rw [handleAll, List.foldlM_append, ← handleAll, h]
  rfl

/-! ## One window -/

/-- The window `id` shows the picture. -/
def Shows (v : Viewer) (id : UInt64) (p : Picture) : Prop :=
  ∃ frame, v.windows.lookup id = some frame ∧ frame.picture = p

variable {v : Viewer} {id : UInt64} {p : Picture}

theorem shows_insert (frame : FrameBuffer) :
    Shows { v with windows := v.windows.insert id frame } id frame.picture :=
  ⟨frame, Finmap.lookup_insert _, rfl⟩

/-- A frame takes any size of at least one pixel that a `Vec` can hold. -/
theorem resizeToRemoteSize_ok (frame : FrameBuffer) {w h : Nat} (hw : 0 < w) (hh : 0 < h)
    (hfit : 4 * (w * h) < 2 ^ 63) :
    ∃ frame', frame.resizeToRemoteSize (max w 1) (max h 1) = .ok frame' ∧
      frame'.picture = frame.picture.resizeTo w h := by
  have hmax : ∀ n, 0 < n → max (max n 1) 1 = n := by omega
  rw [FrameBuffer.resizeToRemoteSize, hmax w hw, hmax h hh]
  obtain ⟨frame', hok⟩ := frame.resizeForRemoteSize_ok hfit
  exact ⟨frame', hok, FrameBuffer.picture_resizeForRemoteSize hok⟩

theorem created_ok (v : Viewer) (id : UInt64) (title appId : String) :
    ∃ v', v.handleMessage
        (.windowEvent (.created id { x := 0, y := 0, w := 1, h := 1 } title appId)) = .ok v' := by
  have hresize (frame : FrameBuffer) := resizeToRemoteSize_ok frame Nat.one_pos Nat.one_pos (by decide)
  simp only [handleMessage, handleRemoteWindowEvent, createWindow]
  split
  · rename_i frame _
    obtain ⟨frame', hframe', -⟩ := hresize frame
    exact ⟨_, bind_eq_ok.2 ⟨frame', hframe', rfl⟩⟩
  · obtain ⟨blank, hnew⟩ : ∃ blank, FrameBuffer.new initialHiddenWindowSize
        initialHiddenWindowSize = .ok blank := FrameBuffer.new_ok (by decide)
    obtain ⟨frame', hframe', -⟩ := hresize blank
    exact ⟨_, bind_eq_ok.2 ⟨blank, hnew, bind_eq_ok.2 ⟨frame', hframe', rfl⟩⟩⟩

theorem destroyed_ok (v : Viewer) (id : UInt64) :
    ∃ v', v.handleMessage (.windowEvent (.destroyed id)) = .ok v' := by
  simp only [handleMessage, handleRemoteWindowEvent]
  split
  · exact ⟨_, rfl⟩
  · exact ⟨_, rfl⟩

/-- The `Created` of a new window shows an empty picture of its size. -/
theorem shows_created (hv : v.windows.lookup id = none) (title appId : String) :
    ∃ v', v.handleMessage
        (.windowEvent (.created id { x := 0, y := 0, w := 1, h := 1 } title appId)) = .ok v' ∧
      v'.Shows id { width := 1, height := 1, pixel := fun _ _ => transparentPixel } := by
  obtain ⟨blank, hnew⟩ : ∃ blank, FrameBuffer.new initialHiddenWindowSize initialHiddenWindowSize =
      .ok blank := FrameBuffer.new_ok (by decide)
  obtain ⟨frame, hresize, hpicture⟩ :=
    resizeToRemoteSize_ok blank Nat.one_pos Nat.one_pos (by decide)
  rw [FrameBuffer.picture_new hnew] at hpicture
  refine ⟨{ v with windows := v.windows.insert id frame }, ?_, frame, Finmap.lookup_insert _, hpicture⟩
  simp only [handleMessage, handleRemoteWindowEvent, createWindow, hv]
  exact bind_eq_ok.2 ⟨blank, hnew, bind_eq_ok.2 ⟨frame, hresize, rfl⟩⟩

theorem Shows.configured (h : v.Shows id p) (geom : WindowGeometry) (hw : 0 < geom.w.toNat)
    (hh : 0 < geom.h.toNat) (hfit : 4 * (geom.w.toNat * geom.h.toNat) < 2 ^ 63) :
    ∃ v', v.handleMessage (.windowEvent (.configured id geom)) = .ok v' ∧
      v'.Shows id (p.resizeTo geom.w.toNat geom.h.toNat) := by
  obtain ⟨frame, hframe, rfl⟩ := h
  obtain ⟨frame', hresize, hpicture⟩ := resizeToRemoteSize_ok frame hw hh hfit
  refine ⟨{ v with windows := v.windows.insert id frame' }, ?_, ?_⟩
  · simp only [handleMessage, handleRemoteWindowEvent, hframe]
    exact bind_eq_ok.2 ⟨frame', hresize, rfl⟩
  · rw [← hpicture]
    exact shows_insert _

/-- An accepted tile that fits is drawn. -/
theorem Shows.frameTile (tile : FrameTile) (h : v.Shows tile.id p) (ht : tile.Accepted)
    (hx : tile.x.toNat + tile.w.toNat < 2 ^ 32) (hy : tile.y.toNat + tile.h.toNat < 2 ^ 32)
    (hw : p.width < 2 ^ 32) (hh : p.height < 2 ^ 32)
    (harea : (p.overlay tile).width * (p.overlay tile).height < 2 ^ 32) :
    ∃ v', v.handleMessage (.frameTile tile) = .ok v' ∧ v'.Shows tile.id (p.overlay tile) := by
  obtain ⟨frame, hframe, rfl⟩ := h
  obtain ⟨frame', changed, hok, hpic⟩ := frame.picture_applyTile ht hx hy hw hh harea
  refine ⟨{ v with windows := v.windows.insert tile.id frame' }, ?_, ?_⟩
  · simp only [handleMessage, hframe, hok]
  · rw [← hpic]
    exact shows_insert _

end Viewer
end VBox
