import TlsTransport.Engine
import TlsTransport.Script.Engine
import TlsTransport.Tagged.Engine

/-! # What an engine may do to its buffers

An engine takes its input from the front, in order, and only appends to its output and to the
plaintext: `KeepsBuffers`. The scripted engine and the engine of the tagged-record protocol both do.
-/

namespace TlsTransport

/-- An engine that takes its input from the front and only appends to its output and to the
plaintext. -/
structure KeepsBuffers (σ : Type) {ε : Type} [Engine σ ε] : Prop where
  handshake_input : ∀ (e : σ) (input output : Buffer),
    (Engine.handshake e input output).input.data <:+ input.data
  handshake_output : ∀ (e : σ) (input output : Buffer),
    output.data <+: (Engine.handshake e input output).output.data
  encrypt_output : ∀ (e : σ) (chunk : Bytes) (output : Buffer),
    output.data <+: (Engine.encrypt e chunk output).output.data
  decrypt_input : ∀ (e : σ) (input output plaintext : Buffer),
    (Engine.decrypt e input output plaintext).input.data <:+ input.data
  decrypt_output : ∀ (e : σ) (input output plaintext : Buffer),
    output.data <+: (Engine.decrypt e input output plaintext).output.data
  decrypt_plaintext : ∀ (e : σ) (input output plaintext : Buffer),
    plaintext.data <+: (Engine.decrypt e input output plaintext).plaintext.data
  closeNotify_output : ∀ (e : σ) (output : Buffer),
    output.data <+: (Engine.closeNotify e output).output.data

/-! ## Buffers -/

theorem Buffer.taken_append {before after : Buffer} (h : after.data <:+ before.data) :
    before.taken after ++ after.data = before.data := by
  obtain ⟨front, hfront⟩ := h
  have hlen : before.size - after.size = front.length := by
    simp only [Buffer.size, ← hfront, List.length_append]
    omega
  rw [Buffer.taken, hlen, ← hfront, List.take_left]

theorem Buffer.append_added {before after : Buffer} (h : before.data <+: after.data) :
    before.data ++ before.added after = after.data := by
  obtain ⟨back, hback⟩ := h
  rw [Buffer.added, ← hback, Buffer.size, List.drop_left]

/-! ## Engines that keep to their buffers -/

theorem Buffer.drop_suffix (b : Buffer) (n : Nat) : (b.drop n).data <:+ b.data :=
  List.drop_suffix n b.data

theorem Buffer.prefix_append (b : Buffer) (bytes : Bytes) : b.data <+: (b.append bytes).data :=
  List.prefix_append b.data bytes

theorem ScriptedEngine.keepsBuffers (verifies : Bool) : KeepsBuffers (ScriptedEngine verifies) where
  handshake_input e input output := by
    simp only [Engine.handshake, EngineScript.handshake]
    split
    · exact List.suffix_refl _
    · exact input.drop_suffix _
  handshake_output e input output := by
    simp only [Engine.handshake, EngineScript.handshake]
    split
    · exact List.prefix_refl _
    · exact output.prefix_append _
  encrypt_output e chunk output := by
    simp only [Engine.encrypt, EngineScript.encrypt, Emission.map]
    split <;> exact output.prefix_append _
  decrypt_input e input output plaintext := by
    simp only [Engine.decrypt, EngineScript.decrypt]
    split <;> exact input.drop_suffix _
  decrypt_output e input output plaintext := by
    simp only [Engine.decrypt, EngineScript.decrypt]
    split
    · exact List.prefix_refl _
    · exact output.prefix_append _
  decrypt_plaintext e input output plaintext := by
    simp only [Engine.decrypt, EngineScript.decrypt]
    split <;> exact plaintext.prefix_append _
  closeNotify_output e output := by
    simp only [Engine.closeNotify, EngineScript.closeNotify, Emission.map]
    split <;> exact output.prefix_append _

namespace Tagged

theorem Record.take?_suffix {b b' : Buffer} {r : Record} (h : Record.take? b = .ok (some (r, b'))) :
    b'.data <:+ b.data := by
  unfold Record.take? at h
  split at h
  · simp only at h
    split at h
    · simp at h
    · split at h
      · simp only [Except.ok.injEq, Option.some.injEq, Prod.mk.injEq] at h
        rw [← h.2]
        exact b.drop_suffix _
      · simp at h
  · simp at h

namespace Engine

theorem prefix_emit (output : Buffer) (kind : UInt8) (payload : Bytes) :
    output.data <+: (emit output kind payload).data := output.prefix_append _

theorem takeHandshake_input (e : Engine) (input output : Buffer) :
    (takeHandshake e input output).input.data <:+ input.data := by
  fun_induction takeHandshake e input output with
  | case1 | case2 | case3 => exact List.suffix_refl _
  | case4 _ _ _ _ _ _ hr => exact Record.take?_suffix hr
  | case5 _ _ _ _ _ _ hr _ _ _ _ ih => exact ih.trans (Record.take?_suffix hr)

theorem takeHandshake_output (e : Engine) (input output : Buffer) :
    output.data <+: (takeHandshake e input output).output.data := by
  fun_induction takeHandshake e input output with
  | case1 | case2 | case3 | case4 => exact List.prefix_refl _
  | case5 e input output hp r input' hr phase reply ha output' ih =>
    have hgrow : output.data <+: output'.data := by
      simp only [output']
      split
      · exact List.prefix_refl _
      · exact prefix_emit ..
    exact hgrow.trans ih

theorem decrypt_input (e : Engine) (input output plaintext : Buffer) :
    (decrypt e input output plaintext).input.data <:+ input.data := by
  fun_induction decrypt e input output plaintext with
  | case1 | case2 | case3 => exact List.suffix_refl _
  | case4 _ _ _ _ _ hr _ ih => exact ih.trans (Record.take?_suffix hr)
  | case5 _ _ _ _ _ hr | case6 _ _ _ _ _ hr | case7 _ _ _ _ _ hr => exact Record.take?_suffix hr

theorem decrypt_output (e : Engine) (input output plaintext : Buffer) :
    (decrypt e input output plaintext).output = output := by
  fun_induction decrypt e input output plaintext with
  | case4 _ _ _ _ _ _ _ ih => exact ih
  | _ => rfl

theorem decrypt_plaintext (e : Engine) (input output plaintext : Buffer) :
    plaintext.data <+: (decrypt e input output plaintext).plaintext.data := by
  fun_induction decrypt e input output plaintext with
  | case4 _ plaintext _ _ _ _ _ ih => exact (plaintext.prefix_append _).trans ih
  | _ => exact List.prefix_refl _

theorem keepsBuffers : KeepsBuffers Engine where
  handshake_input e input output := by
    simp only [TlsTransport.Engine.handshake, handshake]
    split
    · exact List.suffix_refl _
    · split <;> exact takeHandshake_input ..
  handshake_output e input output := by
    simp only [TlsTransport.Engine.handshake, handshake]
    split
    · exact List.prefix_refl _
    · split
      · exact (prefix_emit ..).trans (takeHandshake_output ..)
      · exact takeHandshake_output ..
  encrypt_output e chunk output := by
    simp only [TlsTransport.Engine.encrypt, encrypt]
    split
    · exact List.prefix_refl _
    · simp only
      split
      · exact (prefix_emit ..).trans (prefix_emit ..)
      · exact prefix_emit ..
  decrypt_input := decrypt_input
  decrypt_output e input output plaintext := by
    simp only [TlsTransport.Engine.decrypt, decrypt_output]
    exact List.prefix_refl _
  decrypt_plaintext := decrypt_plaintext
  closeNotify_output e output := prefix_emit ..

end Engine
end Tagged
end TlsTransport
