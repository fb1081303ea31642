import Mathlib.Data.List.Basic
import Mathlib.Data.List.Induction

/-!
# The keys of the game window (`exe-game`)

`Base/Input.cpp` keeps a state for each of 256 key codes.  `Window::MessageHandler` turns the key
messages of Windows into calls of the virtual functions `OnKeyDown` and `OnKeyUp`, which
`GameWindow` passes on to its `Input`; `GameWindow::Update` ends every frame with
`Input::PostUpdate`.

* `Input.held_calls_iff`: however `Input` is called, a key is held exactly if the last call for it
  was a `KeyDown`;
* `GameWindow.run_mInput`: the calls that a sequence of messages and frames makes;
* `GameWindow.tracksLevel_iff`: when the window tracks the last key message.
-/

namespace CoreServer

namespace Game

/-! ## `Input` -/

/-- `Input::eKeyState`. -/
inductive KeyState where
  | NONE
  | DOWN
  | PRESS
  | UP
deriving DecidableEq, Repr

namespace KeyState

/-- The `switch` of `KeyDown`. -/
def keyDown : KeyState → KeyState
  | DOWN => PRESS
  | PRESS => PRESS
  | _ => DOWN

/-- The body of the loop in `PostUpdate`. -/
def postUpdate : KeyState → KeyState
  | UP => NONE
  | DOWN => PRESS
  | keyState => keyState

/-- The key is down. -/
def Held (keyState : KeyState) : Prop := keyState = DOWN ∨ keyState = PRESS

instance (keyState : KeyState) : Decidable keyState.Held := inferInstanceAs (Decidable (_ ∨ _))

lemma held_keyDown (keyState : KeyState) : keyState.keyDown.Held := by
  cases keyState <;> decide

lemma held_postUpdate {keyState : KeyState} : keyState.postUpdate.Held ↔ keyState.Held := by
  cases keyState <;> decide

lemma not_held_iff {keyState : KeyState} : ¬ keyState.Held ↔ keyState = NONE ∨ keyState = UP := by
  cases keyState <;> decide

end KeyState

/-- The member of `Input`. -/
structure Input where
  mKeyStates : Vector KeyState 256

/-- A call of a method of `Input` that changes it. -/
inductive InputCall where
  | keyDown (keyCode : UInt8)
  | keyUp (keyCode : UInt8)
  | postUpdate
deriving DecidableEq, Repr

namespace Input

/-- `Input::Input`. -/
def construct : Input := ⟨Vector.replicate 256 .NONE⟩

/-- `GetKeyState`. -/
def getKeyState (input : Input) (keyCode : UInt8) : KeyState :=
  have hlt : keyCode.toNat < 256 := keyCode.toNat_lt
  input.mKeyStates[keyCode.toNat]

/-- `mKeyStates[keyCode] = keyState`. -/
def setKeyState (input : Input) (keyCode : UInt8) (keyState : KeyState) : Input :=
  ⟨input.mKeyStates.set keyCode.toNat keyState keyCode.toNat_lt⟩

/-- `KeyDown`. -/
def keyDown (input : Input) (keyCode : UInt8) : Input :=
  input.setKeyState keyCode (input.getKeyState keyCode).keyDown

/-- `KeyUp`. -/
def keyUp (input : Input) (keyCode : UInt8) : Input := input.setKeyState keyCode .UP

/-- `PostUpdate`. -/
def postUpdate (input : Input) : Input := ⟨input.mKeyStates.map KeyState.postUpdate⟩

/-- One call. -/
def call (input : Input) : InputCall → Input
  | .keyDown keyCode => input.keyDown keyCode
  | .keyUp keyCode => input.keyUp keyCode
  | .postUpdate => input.postUpdate

/-- The calls, one after the other. -/
def calls (input : Input) (as : List InputCall) : Input := as.foldl call input

end Input

/-- What a call says about a key: `true` that it is down, `false` that it is up. -/
def InputCall.level (keyCode : UInt8) : InputCall → Option Bool
  | keyDown code => if code = keyCode then some true else none
  | keyUp code => if code = keyCode then some false else none
  | postUpdate => none

namespace Input

variable {input : Input} {keyCode code : UInt8} {keyState : KeyState}

@[simp] lemma getKeyState_construct : construct.getKeyState keyCode = .NONE := by
  simp [construct, getKeyState]

lemma getKeyState_setKeyState :
    (input.setKeyState code keyState).getKeyState keyCode =
      if code = keyCode then keyState else input.getKeyState keyCode := by
  simp [setKeyState, getKeyState, Vector.getElem_set, UInt8.toNat_inj]

lemma getKeyState_postUpdate :
    input.postUpdate.getKeyState keyCode = (input.getKeyState keyCode).postUpdate := by
  simp [postUpdate, getKeyState]

lemma calls_append_singleton (as : List InputCall) (a : InputCall) :
    input.calls (as ++ [a]) = (input.calls as).call a := by
  rw [calls, List.foldl_append, List.foldl_cons, List.foldl_nil, calls]

/-- **One call.**  It makes the key held or not, or leaves it as it is. -/
lemma held_call_iff (a : InputCall) :
    ((input.call a).getKeyState keyCode).Held ↔
      (a.level keyCode).elim (input.getKeyState keyCode).Held (· = true) := by
  cases a with
  | keyDown code =>
    by_cases h : code = keyCode
    · simp [call, keyDown, getKeyState_setKeyState, InputCall.level, h, KeyState.held_keyDown]
    · simp [call, keyDown, getKeyState_setKeyState, InputCall.level, h]
  | keyUp code =>
    by_cases h : code = keyCode
    · simp [call, keyUp, getKeyState_setKeyState, InputCall.level, h, KeyState.Held]
    · simp [call, keyUp, getKeyState_setKeyState, InputCall.level, h]
  | postUpdate => simp [call, getKeyState_postUpdate, KeyState.held_postUpdate, InputCall.level]

/-- **Any calls.**  A key is held exactly if the last call for it was a `KeyDown`. -/
theorem held_calls_iff (as : List InputCall) :
    ((construct.calls as).getKeyState keyCode).Held ↔
      (as.filterMap (InputCall.level keyCode)).getLast? = some true := by
  induction as using List.reverseRecOn with
  | nil => simp [calls, KeyState.Held]
  | append_singleton as a ih =>
    rw [calls_append_singleton, held_call_iff]
    cases h : a.level keyCode with
    | none => simpa [h] using ih
    | some down => simp [h]

end Input

/-! ## `Window` and `GameWindow` -/

def WM_KEYDOWN : UInt32 := 0x0100

def WM_KEYUP : UInt32 := 0x0101

def WM_SYSKEYDOWN : UInt32 := 0x0104

def WM_SYSKEYUP : UInt32 := 0x0105

/-- The virtual functions of a class derived from `Window` that are called for the keys. -/
class Window (ω : Type) where
  onKeyDown : ω → UInt8 → ω
  onKeyUp : ω → UInt8 → ω
  update : ω → ω

/-- `Window::MessageHandler`, which calls `OnKeyDown` for the key-up messages too.  The parameter of
the virtual functions is an `unsigned char`; `DefWindowProcA` is left out. -/
def Window.messageHandler {ω : Type} [Window ω] (window : ω) (message : UInt32)
    (wParam : UInt64) : ω :=
  if message = WM_SYSKEYDOWN ∨ message = WM_KEYDOWN then Window.onKeyDown window wParam.toUInt8
  else if message = WM_SYSKEYUP ∨ message = WM_KEYUP then Window.onKeyDown window wParam.toUInt8
  else window

/-- The member of `GameWindow` that the key messages and the frames change. -/
structure GameWindow where
  mInput : Input

instance : Window GameWindow where
  onKeyDown window keyCode := ⟨window.mInput.keyDown keyCode⟩
  onKeyUp window keyCode := ⟨window.mInput.keyUp keyCode⟩
  update window := ⟨window.mInput.postUpdate⟩

/-- A message that `WndProc` hands to the window, or a call of `Update` in `UpdateWindows`. -/
inductive WindowEvent where
  | dispatch (message : UInt32) (wParam : UInt64)
  | update
deriving DecidableEq, Repr

namespace WindowEvent

/-- What a message says about a key: `true` that it went down, `false` that it went up. -/
def level (keyCode : UInt8) : WindowEvent → Option Bool
  | .dispatch message wParam =>
    if wParam.toUInt8 ≠ keyCode then none
    else if message = WM_KEYDOWN ∨ message = WM_SYSKEYDOWN then some true
    else if message = WM_KEYUP ∨ message = WM_SYSKEYUP then some false
    else none
  | .update => none

/-- What the last message for a key says, if there was one. -/
def lastLevel (keyCode : UInt8) (events : List WindowEvent) : Option Bool :=
  (events.filterMap (level keyCode)).getLast?

/-- The call of `Input` that the window makes. -/
def toCall : WindowEvent → Option InputCall
  | .dispatch message wParam =>
    if message = WM_SYSKEYDOWN ∨ message = WM_KEYDOWN ∨ message = WM_SYSKEYUP ∨ message = WM_KEYUP
    then some (.keyDown wParam.toUInt8)
    else none
  | .update => some .postUpdate

/-- Every key message is taken for one that a key went down. -/
lemma toCall_bind_level (keyCode : UInt8) (e : WindowEvent) :
    e.toCall.bind (InputCall.level keyCode) = (e.level keyCode).map fun _ => true := by
  cases e with
  | dispatch message wParam =>
    simp only [toCall, level]
    split_ifs <;> simp_all [InputCall.level]
  | update => rfl

end WindowEvent

namespace GameWindow

/-- `GameWindow::GameWindow`. -/
def construct : GameWindow := ⟨Input.construct⟩

/-- One message or frame. -/
def handle (window : GameWindow) : WindowEvent → GameWindow
  | .dispatch message wParam => Window.messageHandler window message wParam
  | .update => Window.update window

/-- A new window after messages and frames. -/
def run (events : List WindowEvent) : GameWindow := events.foldl handle construct

/-- `GetKeyState` is `DOWN` or `PRESS` if the last message for the key was a key-down, and `NONE` or
`UP` otherwise. -/
def TracksLevel (keyCode : UInt8) (events : List WindowEvent) : Prop :=
  if WindowEvent.lastLevel keyCode events = some true
  then ((run events).mInput.getKeyState keyCode).Held
  else (run events).mInput.getKeyState keyCode = .NONE ∨
    (run events).mInput.getKeyState keyCode = .UP

lemma handle_mInput (window : GameWindow) (e : WindowEvent) :
    (window.handle e).mInput = e.toCall.elim window.mInput window.mInput.call := by
  cases e with
  | dispatch message wParam =>
    simp only [handle, Window.messageHandler, WindowEvent.toCall]
    split_ifs <;> simp_all [Window.onKeyDown, Input.call]
  | update => rfl

lemma run_append_singleton (events : List WindowEvent) (e : WindowEvent) :
    run (events ++ [e]) = (run events).handle e := by
  rw [run, List.foldl_append, List.foldl_cons, List.foldl_nil, run]

/-- **The window drives its `Input`.** -/
theorem run_mInput (events : List WindowEvent) :
    (run events).mInput = Input.construct.calls (events.filterMap WindowEvent.toCall) := by
  induction events using List.reverseRecOn with
  | nil => rfl
  | append_singleton events e ih =>
    rw [run_append_singleton, handle_mInput, ih, List.filterMap_append]
    cases h : e.toCall with
    | none => simp [h]
    | some a => simp [h, Input.calls_append_singleton]

/-- A key is held as soon as there has been a message for it. -/
lemma held_run_iff {keyCode : UInt8} {events : List WindowEvent} :
    ((run events).mInput.getKeyState keyCode).Held ↔
      WindowEvent.lastLevel keyCode events ≠ none := by
  rw [run_mInput, Input.held_calls_iff, List.filterMap_filterMap]
  simp only [WindowEvent.toCall_bind_level]
  rw [← List.map_filterMap, List.getLast?_map, ← WindowEvent.lastLevel]
  cases WindowEvent.lastLevel keyCode events <;> simp

/-- **Key level tracking.**  The window tracks the level of a key exactly if the last message for it
was not a key-up. -/
theorem tracksLevel_iff (keyCode : UInt8) (events : List WindowEvent) :
    TracksLevel keyCode events ↔ WindowEvent.lastLevel keyCode events ≠ some false := by
  rw [TracksLevel, ← KeyState.not_held_iff, held_run_iff]
  cases h : WindowEvent.lastLevel keyCode events with
  | none => simp
  | some down => cases down <;> simp

/-- The key A is pressed and released, and is still held. -/
theorem keyUp_leaves_held :
    ¬ ∀ (keyCode : UInt8) (events : List WindowEvent), TracksLevel keyCode events := by
  intro h
  have hup := h 65 [.dispatch WM_KEYDOWN 65, .dispatch WM_KEYUP 65]
  rw [TracksLevel, if_neg (by decide), ← KeyState.not_held_iff] at hup
  exact hup (held_run_iff.2 (by decide))

end GameWindow

end Game

end CoreServer
