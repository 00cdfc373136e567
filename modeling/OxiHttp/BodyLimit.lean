/-
**Collecting a body within a limit.**

The server and the client have a function each that collects the frames of a body and stops when
the bytes would exceed a limit.  The server adds the length of a frame to what it holds in `u64`,
the client in `usize`, and saturating.  Neither sum can overflow, since no buffer is longer than
`isize::MAX`; a buffer that would have to be is the one thing that is not collected.

Main definitions:

* `OxiHttp.FrameData`, `OxiHttp.BodyFrame` — the frames of a body;
* `OxiHttp.collectLoop` — the loop, with its addition and its error;
* `OxiHttp.Server.collectBodyLimited`, `OxiHttp.Client.collectBodyLimited` — the two functions;
* `OxiHttp.expected` — what is to come of the frames;
* `OxiHttp.CollectsWithin` — a run that gives it and never holds more than the limit.

Main results:

* `OxiHttp.collectLoop_collectsWithin` — one frame after the other;
* `OxiHttp.collectBodyLimited_exact` — both functions, and that they agree.
-/

import OxiHttp.Error
import Mathlib.Algebra.Group.Nat.Defs

set_option relaxedAutoImplicit false
set_option autoImplicit false

namespace OxiHttp

/-! ### Frames -/

/-- The data of a frame: the pieces that it has, one after the other.  They are in memory, where
nothing is longer than `isize::MAX`. -/
structure FrameData where
  chunks : List (List UInt8)
  nonempty : ∀ c ∈ chunks, c ≠ []
  inMemory : chunks.flatten.length < 2 ^ 63

namespace FrameData

/-- All the bytes of the frame. -/
def bytes (d : FrameData) : List UInt8 := d.chunks.flatten

/-- `remaining`. -/
def remaining (d : FrameData) : ℕ := d.bytes.length

end FrameData

/-- What the next frame of a body is; an error is given by its text. -/
inductive BodyFrame where
  | data (d : FrameData)
  | trailers
  | failed (e : String)

/-! ### The loop -/

/-- The inner loop: what is held after each of the pieces, or the panic of `extend_from_slice`. -/
def extendAll (collected : List UInt8) :
    List (List UInt8) → List (List UInt8) × Except Panic (List UInt8)
  | [] => ([], .ok collected)
  | chunk :: chunks =>
    let collected := collected ++ chunk
    if 2 ^ 63 ≤ collected.length then ([], .error .capacity)
    else
      let (held, result) := extendAll collected chunks
      (collected :: held, result)

/-- What is held at each point, and the result, for an addition and an error. -/
def collectLoop (add : ℕ → ℕ → Except Panic ℕ) (tooLarge : OxiHttpError) (max : UInt64) :
    List BodyFrame → List UInt8 →
      List (List UInt8) × Except Panic (Except OxiHttpError (List UInt8))
  | [], collected => ([], .ok (.ok collected))
  | .failed e :: _, _ => ([], .ok (.error (.body e)))
  | .trailers :: frames, collected => collectLoop add tooLarge max frames collected
  | .data d :: frames, collected =>
    match add collected.length d.remaining with
    | .error p => ([], .error p)
    | .ok total =>
      if max.toNat < total then ([], .ok (.error tooLarge))
      else
        match extendAll collected d.chunks with
        | (held, .error p) => (held, .error p)
        | (held, .ok collected) =>
          let (held', result) := collectLoop add tooLarge max frames collected
          (held ++ held', result)

/-- The addition of `u64`. -/
def addU64 (a b : ℕ) : Except Panic ℕ := if a + b < 2 ^ 64 then .ok (a + b) else .error .overflow

/-- `saturating_add` of `usize`. -/
def saturatingAdd (a b : ℕ) : Except Panic ℕ := .ok (min (a + b) (2 ^ 64 - 1))

/-- The error of a body that is too large. -/
def tooLarge (what : String) (max : UInt64) : OxiHttpError :=
  .body (what ++ " body too large: exceeds limit of " ++ toString max ++ " bytes")

/-- `collect_body_limited` of the server. -/
def Server.collectBodyLimited (frames : List BodyFrame) (max : UInt64) :
    List (List UInt8) × Except Panic (Except OxiHttpError (List UInt8)) :=
  collectLoop addU64 (tooLarge "request" max) max frames []

/-- `collect_body_limited` of the client. -/
def Client.collectBodyLimited (frames : List BodyFrame) (max : UInt64) :
    List (List UInt8) × Except Panic (Except OxiHttpError (List UInt8)) :=
  collectLoop saturatingAdd (tooLarge "response" max) max frames []

/-! ### What is to come of the frames -/

/-- The bytes of the frames before the first error. -/
def bodyBytes : List BodyFrame → List UInt8
  | [] => []
  | .failed _ :: _ => []
  | .trailers :: frames => bodyBytes frames
  | .data d :: frames => d.bytes ++ bodyBytes frames

/-- The first error. -/
def bodyError : List BodyFrame → Option String
  | [] => none
  | .failed e :: _ => some e
  | .trailers :: frames => bodyError frames
  | .data _ :: frames => bodyError frames

/-- All the bytes, or an error: that they are too many, or else that of the body. -/
def expected (tooLarge : OxiHttpError) (max : UInt64) (bytes : List UInt8) (error : Option String) :
    Except OxiHttpError (List UInt8) :=
  if max.toNat < bytes.length then .error tooLarge
  else
    match error with
    | some e => .error (.body e)
    | none => .ok bytes

theorem expected_of_lt {tooLarge : OxiHttpError} {max : UInt64} {bytes : List UInt8}
    (h : max.toNat < bytes.length) (error : Option String) :
    expected tooLarge max bytes error = .error tooLarge := if_pos h

theorem expected_ok {tooLarge : OxiHttpError} {max : UInt64} {bytes : List UInt8}
    (h : bytes.length ≤ max.toNat) : expected tooLarge max bytes none = .ok bytes :=
  if_neg (Nat.not_lt.2 h)

theorem expected_error {tooLarge : OxiHttpError} {max : UInt64} {bytes : List UInt8}
    (h : bytes.length ≤ max.toNat) (e : String) :
    expected tooLarge max bytes (some e) = .error (.body e) := if_neg (Nat.not_lt.2 h)

/-- The result is the one that is expected, unless the bytes to be held are too many for a buffer;
and more than the limit is never held. -/
structure CollectsWithin (tooLarge : OxiHttpError) (max : UInt64) (bytes : List UInt8)
    (error : Option String)
    (run : List (List UInt8) × Except Panic (Except OxiHttpError (List UInt8))) : Prop where
  result : run.2 = .ok (expected tooLarge max bytes error) ∨
    run.2 = .error .capacity ∧ 2 ^ 63 ≤ bytes.length ∧ 2 ^ 63 ≤ max.toNat
  held : ∀ collected ∈ run.1, collected.length ≤ max.toNat

/-! ### One frame after the other -/

/-- What the inner loop does: all the pieces are held in the end, or a buffer is too long. -/
theorem extendAll_cases (chunks : List (List UInt8)) {collected : List UInt8}
    (hmemory : collected.length < 2 ^ 63) :
    ((extendAll collected chunks).2 = .ok (collected ++ chunks.flatten) ∧
        (collected ++ chunks.flatten).length < 2 ^ 63 ∨
      (extendAll collected chunks).2 = .error .capacity ∧
        2 ^ 63 ≤ (collected ++ chunks.flatten).length) ∧
      ∀ c ∈ (extendAll collected chunks).1, c.length ≤ (collected ++ chunks.flatten).length := by
  induction chunks generalizing collected with
  | nil =>
      rw [List.flatten_nil, List.append_nil]
      exact ⟨.inl ⟨rfl, hmemory⟩, by rintro c ⟨⟩⟩
  | cons chunk chunks ih =>
      have hflat : collected ++ (chunk :: chunks).flatten =
          collected ++ chunk ++ chunks.flatten := by
        rw [List.flatten_cons, List.append_assoc]
      rw [hflat, extendAll]
      by_cases hlong : 2 ^ 63 ≤ (collected ++ chunk).length
      · rw [if_pos hlong]
        refine ⟨.inr ⟨rfl, ?_⟩, by rintro c ⟨⟩⟩
        rw [List.length_append]
        omega
      · rw [if_neg hlong]
        obtain ⟨hresult, hheld⟩ := ih (Nat.not_le.1 hlong)
        refine ⟨hresult, List.forall_mem_cons.2 ⟨?_, hheld⟩⟩
        have hlength : (collected ++ chunk ++ chunks.flatten).length =
            (collected ++ chunk).length + chunks.flatten.length := List.length_append
        omega

/-- An addition that is right for the lengths of what is in memory: it tells whether the limit is
exceeded. -/
def Decides (add : ℕ → ℕ → Except Panic ℕ) : Prop :=
  ∀ a b : ℕ, a < 2 ^ 63 → b < 2 ^ 63 → add a b = .ok (a + b)

theorem addU64_decides : Decides addU64 := by
  intro a b ha hb
  rw [addU64, if_pos (by omega)]

/-- Saturation is out of reach. -/
theorem saturatingAdd_decides : Decides saturatingAdd := by
  intro a b ha hb
  rw [saturatingAdd, Nat.min_eq_left (by omega)]

/-- The loop, with what is held already. -/
theorem collectLoop_collectsWithin {add : ℕ → ℕ → Except Panic ℕ} (hadd : Decides add)
    (tooLarge : OxiHttpError) (max : UInt64) (frames : List BodyFrame) {collected : List UInt8}
    (hmax : collected.length ≤ max.toNat) (hmemory : collected.length < 2 ^ 63) :
    CollectsWithin tooLarge max (collected ++ bodyBytes frames) (bodyError frames)
      (collectLoop add tooLarge max frames collected) := by
  induction frames generalizing collected with
  | nil =>
      refine ⟨.inl ?_, by rintro c ⟨⟩⟩
      rw [bodyBytes, List.append_nil, bodyError, expected_ok hmax]
      rfl
  | cons frame frames ih =>
      cases frame with
      | failed e =>
          refine ⟨.inl ?_, by rintro c ⟨⟩⟩
          rw [bodyBytes, List.append_nil, bodyError, expected_error hmax]
          rfl
      | trailers => exact ih hmax hmemory
      | data d =>
          have hd : d.remaining < 2 ^ 63 := d.inMemory
          have hlength : (collected ++ d.bytes).length = collected.length + d.remaining :=
            List.length_append
          have hall : collected ++ bodyBytes (.data d :: frames) =
              collected ++ d.bytes ++ bodyBytes frames := (List.append_assoc _ _ _).symm
          rw [hall, bodyError, collectLoop, hadd _ _ hmemory hd]
          dsimp only
          by_cases hover : max.toNat < collected.length + d.remaining
          · -- the frame is not taken; what follows it only adds to the bytes
            rw [if_pos hover]
            refine ⟨.inl ?_, by rintro c ⟨⟩⟩
            rw [expected_of_lt (by rw [List.length_append]; omega)]
          · rw [if_neg hover]
            obtain ⟨hresult, hheld⟩ := extendAll_cases d.chunks hmemory
            rw [← FrameData.bytes] at hresult hheld
            rcases hrun : extendAll collected d.chunks with ⟨held, result⟩
            rw [hrun] at hresult hheld
            have hheld' : ∀ c ∈ held, c.length ≤ max.toNat := fun c hc => by
              have hle : c.length ≤ (collected ++ d.bytes).length := hheld c hc
              omega
            rcases hresult with ⟨rfl, hfits⟩ | ⟨rfl, hlong⟩
            · obtain ⟨hrest, hheldRest⟩ := ih (by omega) hfits
              exact ⟨hrest, fun c hc => (List.mem_append.1 hc).elim (hheld' c) (hheldRest c)⟩
            · refine ⟨.inr ⟨rfl, ?_, by omega⟩, hheld'⟩
              rw [List.length_append]
              omega

/-- The addition and the error do not matter for what is collected. -/
theorem collectLoop_agree {add add' : ℕ → ℕ → Except Panic ℕ} (hadd : Decides add)
    (hadd' : Decides add') (tooLarge tooLarge' : OxiHttpError) (max : UInt64)
    (frames : List BodyFrame) {collected : List UInt8} (hmemory : collected.length < 2 ^ 63) :
    (collectLoop add tooLarge max frames collected).2.map Except.toOption =
      (collectLoop add' tooLarge' max frames collected).2.map Except.toOption := by
  induction frames generalizing collected with
  | nil => rfl
  | cons frame frames ih =>
      cases frame with
      | failed e => rfl
      | trailers => exact ih hmemory
      | data d =>
          have hd : d.remaining < 2 ^ 63 := d.inMemory
          rw [collectLoop, collectLoop, hadd _ _ hmemory hd, hadd' _ _ hmemory hd]
          dsimp only
          by_cases hover : max.toNat < collected.length + d.remaining
          · rw [if_pos hover, if_pos hover]
            rfl
          · rw [if_neg hover, if_neg hover]
            obtain ⟨hresult, -⟩ := extendAll_cases d.chunks hmemory
            rcases hrun : extendAll collected d.chunks with ⟨held, result⟩
            rw [hrun] at hresult
            rcases hresult with ⟨rfl, hfits⟩ | ⟨rfl, -⟩
            · exact ih hfits
            · rfl

/-- **Both functions collect exactly what is within the limit**: the result is all the bytes when
they are at most the limit and there is no error, and an error otherwise, more than the limit is
never held, and the two agree. -/
theorem collectBodyLimited_exact (frames : List BodyFrame) (max : UInt64) :
    CollectsWithin (tooLarge "request" max) max (bodyBytes frames) (bodyError frames)
        (Server.collectBodyLimited frames max) ∧
      CollectsWithin (tooLarge "response" max) max (bodyBytes frames) (bodyError frames)
        (Client.collectBodyLimited frames max) ∧
      (Server.collectBodyLimited frames max).2.map Except.toOption =
        (Client.collectBodyLimited frames max).2.map Except.toOption := by
  -- nothing is held at first
  have hmax : ([] : List UInt8).length ≤ max.toNat := Nat.zero_le _
  have hmemory : ([] : List UInt8).length < 2 ^ 63 := Nat.two_pow_pos 63
  refine ⟨?_, ?_, ?_⟩
  · exact collectLoop_collectsWithin addU64_decides _ max frames hmax hmemory
  · exact collectLoop_collectsWithin saturatingAdd_decides _ max frames hmax hmemory
  · exact collectLoop_agree addU64_decides saturatingAdd_decides _ _ max frames hmemory

end OxiHttp
