/-
  ElectricEel.Session.Decoding — which bytes are an authentication request (auth.go).

  A request's encoding is any message whose known fields occur once, the token's parts at
  most once, in any order and with any other fields among them, at each of its three
  levels. A field with a known number and another wire type is another field.

  Proved: the decoder reads every encoding as the level and the token it encodes, accepts
  only complete messages with a field 3 whose own field 3 is the level, and its loops end
  (`authDecoding_exact`); a response decoded field by field gives its level back.
-/
import ElectricEel.Session.Auth

namespace ElectricEel.Session

open Lib.Protowire

/-! ## Encodings -/

def isBytesField (num : Nat) : Field → Bool
  | ⟨n, .bytes _⟩ => n == num
  | _ => false

def isVarintField (num : Nat) : Field → Bool
  | ⟨n, .varint _⟩ => n == num
  | _ => false

/-- AuthenticationRequestToken{1: token}. -/
def EncodesToken (token b : Bytes) : Prop :=
  ∃ fs, IsMessage fs b ∧
    (fs.filter (isBytesField 1) = [⟨1, .bytes token⟩] ∨ fs.filter (isBytesField 1) = [] ∧ token = [])

/-- AuthenticationRequest{2: {1: token}, 3: level}. -/
def EncodesRequest (level : Int) (token b : Bytes) : Prop :=
  ∃ fs v, IsMessage fs b ∧ fs.filter (isVarintField 3) = [⟨3, .varint v⟩] ∧ Int.bmod v (2 ^ 64) = level ∧
    ((∃ t, fs.filter (isBytesField 2) = [⟨2, .bytes t⟩] ∧ EncodesToken token t) ∨
      fs.filter (isBytesField 2) = [] ∧ token = [])

/-- FromVCSECMessage{3: request}. -/
def EncodesFromVCSEC (level : Int) (token b : Bytes) : Prop :=
  ∃ fs request, IsMessage fs b ∧ fs.filter (isBytesField 3) = [⟨3, .bytes request⟩] ∧ EncodesRequest level token request

/-! ## The walks -/

variable {W : Codec}

/-- A walk sees only the fields it does not skip. -/
theorem foldl_skips {σ : Type} {step : σ → Field → σ} {p : Field → Bool} (hskip : ∀ s f, p f = false → step s f = s)
    (fs : List Field) (s : σ) : fs.foldl step s = (fs.filter p).foldl step s := by
  induction fs generalizing s with
  | nil => rfl
  | cons f fs ih =>
    by_cases hf : p f = true
    · rw [List.filter_cons_of_pos hf, List.foldl_cons, List.foldl_cons, ih]
    · rw [List.filter_cons_of_neg hf, List.foldl_cons, hskip s f (by simpa using hf), ih]

theorem foldlM_skips {σ : Type} {step : σ → Field → Option σ} {p : Field → Bool}
    (hskip : ∀ s f, p f = false → step s f = some s) (fs : List Field) (s : σ) :
    fs.foldlM step s = (fs.filter p).foldlM step s := by
  induction fs generalizing s with
  | nil => rfl
  | cons f fs ih =>
    by_cases hf : p f = true
    · rw [List.filter_cons_of_pos hf, List.foldlM_cons, List.foldlM_cons]
      cases step s f with
      | none => rfl
      | some s' => exact ih s'
    · rw [List.filter_cons_of_neg hf, List.foldlM_cons, hskip s f (by simpa using hf)]
      exact ih s

def tokenStep (token : Bytes) (f : Field) : Bytes := match f with | ⟨1, .bytes val⟩ => val | _ => token

theorem parseAuthRequestToken_eq (b : Bytes) : parseAuthRequestToken W b = (W.fields b).map (·.foldl tokenStep []) := by
  unfold parseAuthRequestToken
  cases W.fields b <;> rfl

theorem tokenStep_skips (token : Bytes) (f : Field) (hf : isBytesField 1 f = false) : tokenStep token f = token := by
  unfold tokenStep
  split
  · cases hf
  · rfl

theorem EncodesToken.parse {token b : Bytes} (h : EncodesToken token b) : parseAuthRequestToken W b = some token := by
  obtain ⟨fs, hm, hone | ⟨hnone, rfl⟩⟩ := h
  · rw [parseAuthRequestToken_eq, Codec.fields_iff.2 hm, Option.map_some, foldl_skips tokenStep_skips, hone]
    rfl
  · rw [parseAuthRequestToken_eq, Codec.fields_iff.2 hm, Option.map_some, foldl_skips tokenStep_skips, hnone]
    rfl

def requestStep (W : Codec) (acc : Option Int × Bytes) (f : Field) : Option (Option Int × Bytes) :=
  match f with
  | ⟨2, .bytes val⟩ => (parseAuthRequestToken W val).map fun token => (acc.1, token)
  | ⟨3, .varint v⟩ => some (some (Int.bmod v (2 ^ 64)), acc.2)
  | _ => some acc

theorem parseAuthRequestMessage_eq (b : Bytes) :
    parseAuthRequestMessage W b =
      (W.fields b).bind fun fs => (fs.foldlM (requestStep W) (none, [])).bind fun acc =>
        acc.1.map fun requestedLevel => { requestedLevel, token := acc.2 } := rfl

def levelStep (level : Option Int) (f : Field) : Option Int :=
  match f with
  | ⟨3, .varint v⟩ => some (Int.bmod v (2 ^ 64))
  | _ => level

/-- The token by the fields 2. -/
def tokenPartStep (W : Codec) (token : Bytes) (f : Field) : Option Bytes :=
  match f with
  | ⟨2, .bytes val⟩ => parseAuthRequestToken W val
  | _ => some token

theorem requestStep_eq (acc : Option Int × Bytes) (f : Field) :
    requestStep W acc f = (tokenPartStep W acc.2 f).map fun token => (levelStep acc.1 f, token) := by
  obtain ⟨num, value⟩ := f
  cases value with
  | varint v =>
    by_cases h3 : num = 3
    · subst h3
      rfl
    · simp [requestStep, tokenPartStep, levelStep, h3]
  | bytes b =>
    by_cases h2 : num = 2
    · subst h2
      rfl
    · simp [requestStep, tokenPartStep, levelStep, h2]
  | other => simp [requestStep, tokenPartStep, levelStep]

theorem foldlM_requestStep (fs : List Field) (level : Option Int) (token : Bytes) :
    fs.foldlM (requestStep W) (level, token) =
      (fs.foldlM (tokenPartStep W) token).map fun token => (fs.foldl levelStep level, token) := by
  induction fs generalizing level token with
  | nil => rfl
  | cons f fs ih =>
    rw [List.foldlM_cons, requestStep_eq, List.foldlM_cons, List.foldl_cons]
    cases tokenPartStep W token f with
    | none => rfl
    | some token' => exact ih _ _

theorem levelStep_skips (level : Option Int) (f : Field) (hf : isVarintField 3 f = false) : levelStep level f = level := by
  unfold levelStep
  split
  · cases hf
  · rfl

theorem tokenPartStep_skips (token : Bytes) (f : Field) (hf : isBytesField 2 f = false) :
    tokenPartStep W token f = some token := by
  unfold tokenPartStep
  split
  · cases hf
  · rfl

theorem EncodesRequest.parse {level : Int} {token b : Bytes} (h : EncodesRequest level token b) :
    parseAuthRequestMessage W b = some { requestedLevel := level, token } := by
  obtain ⟨fs, v, hm, hlevel, rfl, htoken⟩ := h
  have hlev : fs.foldl levelStep none = some (Int.bmod v (2 ^ 64)) := by
    rw [foldl_skips levelStep_skips, hlevel]
    rfl
  have htok : fs.foldlM (tokenPartStep W) [] = some token := by
    rcases htoken with ⟨t, hone, ht⟩ | ⟨hnone, rfl⟩
    · rw [foldlM_skips tokenPartStep_skips, hone]
      simp only [List.foldlM_cons, List.foldlM_nil, tokenPartStep, ht.parse]
      rfl
    · rw [foldlM_skips tokenPartStep_skips, hnone]
      rfl
  rw [parseAuthRequestMessage_eq, Codec.fields_iff.2 hm, Option.bind_some, foldlM_requestStep, htok, hlev]
  rfl

def fromVCSECStep (W : Codec) (found : Option AuthenticationRequest) (f : Field) : Option (Option AuthenticationRequest) :=
  match f with
  | ⟨3, .bytes val⟩ => (parseAuthRequestMessage W val).map some
  | _ => some found

theorem parseAuthRequestFromFromVCSEC_eq (b : Bytes) :
    parseAuthRequestFromFromVCSEC W b = (W.fields b).bind fun fs => (fs.foldlM (fromVCSECStep W) none).bind id := by
  unfold parseAuthRequestFromFromVCSEC
  cases W.fields b with
  | none => rfl
  | some fs =>
    have hid : ∀ x : Option (Option AuthenticationRequest), (x.bind fun found => found) = x.bind id := fun x => rfl
    exact hid _

theorem fromVCSECStep_skips (found : Option AuthenticationRequest) (f : Field) (hf : isBytesField 3 f = false) :
    fromVCSECStep W found f = some found := by
  unfold fromVCSECStep
  split
  · cases hf
  · rfl

theorem EncodesFromVCSEC.parse {level : Int} {token b : Bytes} (h : EncodesFromVCSEC level token b) :
    parseAuthRequestFromFromVCSEC W b = some { requestedLevel := level, token } := by
  obtain ⟨fs, request, hm, hone, hreq⟩ := h
  rw [parseAuthRequestFromFromVCSEC_eq, Codec.fields_iff.2 hm, Option.bind_some, foldlM_skips fromVCSECStep_skips, hone]
  simp only [List.foldlM_cons, List.foldlM_nil, fromVCSECStep, hreq.parse]
  rfl

/-! ## What is accepted -/

theorem foldl_levelStep_mem {fs : List Field} {start : Option Int} {level : Int} (h : fs.foldl levelStep start = some level) :
    start = some level ∨ ∃ v : Nat, ⟨3, .varint v⟩ ∈ fs ∧ Int.bmod v (2 ^ 64) = level := by
  induction fs generalizing start with
  | nil => exact .inl h
  | cons f fs ih =>
    rw [List.foldl_cons] at h
    rcases ih h with hstep | ⟨v, hv, heq⟩
    · unfold levelStep at hstep
      split at hstep
      · exact .inr ⟨_, List.mem_cons_self, Option.some.inj hstep⟩
      · exact .inl hstep
    · exact .inr ⟨v, List.mem_cons_of_mem f hv, heq⟩

theorem parseAuthRequestMessage_sound {b : Bytes} {r : AuthenticationRequest} (h : parseAuthRequestMessage W b = some r) :
    ∃ (fs : List Field) (v : Nat), IsMessage fs b ∧ ⟨3, .varint v⟩ ∈ fs ∧ Int.bmod v (2 ^ 64) = r.requestedLevel := by
  rw [parseAuthRequestMessage_eq] at h
  obtain ⟨fs, hfs, h⟩ := Option.bind_eq_some_iff.1 h
  obtain ⟨⟨level, token⟩, hacc, h⟩ := Option.bind_eq_some_iff.1 h
  obtain ⟨l, hl, rfl⟩ := Option.map_eq_some_iff.1 h
  rw [foldlM_requestStep] at hacc
  obtain ⟨token', _, heq⟩ := Option.map_eq_some_iff.1 hacc
  have hlevel : fs.foldl levelStep none = some l := (Prod.mk.inj heq).1.trans hl
  rcases foldl_levelStep_mem hlevel with hnone | ⟨v, hv, hvl⟩
  · cases hnone
  · exact ⟨fs, v, Codec.fields_iff.1 hfs, hv, hvl⟩

theorem foldlM_fromVCSECStep_mem {fs : List Field} {start : Option AuthenticationRequest} {r : AuthenticationRequest}
    (h : fs.foldlM (fromVCSECStep W) start = some (some r)) :
    start = some r ∨ ∃ request, ⟨3, .bytes request⟩ ∈ fs ∧ parseAuthRequestMessage W request = some r := by
  induction fs generalizing start with
  | nil => exact .inl (Option.some.inj h)
  | cons f fs ih =>
    rw [List.foldlM_cons] at h
    obtain ⟨found, hstep, h⟩ := Option.bind_eq_some_iff.1 h
    rcases ih h with rfl | ⟨request, hm, hp⟩
    · unfold fromVCSECStep at hstep
      split at hstep
      · obtain ⟨r', hr, heq⟩ := Option.map_eq_some_iff.1 hstep
        cases heq
        exact .inr ⟨_, List.mem_cons_self, hr⟩
      · exact .inl (Option.some.inj hstep)
    · exact .inr ⟨request, List.mem_cons_of_mem f hm, hp⟩

theorem parseAuthRequestFromFromVCSEC_sound {b : Bytes} {r : AuthenticationRequest}
    (h : parseAuthRequestFromFromVCSEC W b = some r) :
    ∃ fs request, IsMessage fs b ∧ ⟨3, .bytes request⟩ ∈ fs ∧ parseAuthRequestMessage W request = some r := by
  rw [parseAuthRequestFromFromVCSEC_eq] at h
  obtain ⟨fs, hfs, h⟩ := Option.bind_eq_some_iff.1 h
  obtain ⟨found, hfound, rfl⟩ := Option.bind_eq_some_iff.1 h
  rcases foldlM_fromVCSECStep_mem hfound with hnone | ⟨request, hm, hp⟩
  · cases hnone
  · exact ⟨fs, request, Codec.fields_iff.1 hfs, hm, hp⟩

/-- Complete: every encoding is read. Sound: what is accepted is a complete message with a
    field 3 that holds the level. Every pass of a walk shortens what is left, so the length
    is enough fuel; and a response holds its level. -/
theorem authDecoding_exact (W : Codec) :
    (∀ level token b, EncodesFromVCSEC level token b →
      parseAuthRequestFromFromVCSEC W b = some { requestedLevel := level, token }) ∧
    (∀ b r, parseAuthRequestFromFromVCSEC W b = some r →
      ∃ (fs gs : List Field) (request : Bytes) (v : Nat), IsMessage fs b ∧ ⟨3, .bytes request⟩ ∈ fs ∧ IsMessage gs request ∧ ⟨3, .varint v⟩ ∈ gs ∧
        Int.bmod v (2 ^ 64) = r.requestedLevel) ∧
    (∀ b f rest, W.consumeField b = some (f, rest) → rest.length < b.length) ∧
    (∀ n b, b.length ≤ n → W.fieldsFrom n b = W.fields b) ∧
    ∀ level : Int, -2 ^ 63 ≤ level → level < 2 ^ 63 →
      ∃ (authResp : Bytes) (v : Nat), W.fields (encodeAuthenticationResponse W level) = some [⟨3, .bytes authResp⟩] ∧
        W.fields authResp = some [⟨1, .varint v⟩] ∧ Int.bmod v (2 ^ 64) = level := by
  refine ⟨fun level token b h => h.parse, ?_, ?_, fun n b h => Codec.fieldsFrom_fuel h, ?_⟩
  · intro b r h
    obtain ⟨fs, request, hm, hmem, hp⟩ := parseAuthRequestFromFromVCSEC_sound h
    obtain ⟨gs, v, hgs, hv, hvl⟩ := parseAuthRequestMessage_sound hp
    exact ⟨fs, gs, request, v, hm, hmem, hgs, hv, hvl⟩
  · intro b f rest h
    obtain ⟨x, hx, rfl⟩ := Codec.consumeField_iff.1 h
    have hpos := hx.pos
    rw [List.length_append]
    omega
  · intro level hlo hhi
    obtain ⟨authResp, houter, hinner⟩ := message_encodeAuthenticationResponse W level
    refine ⟨authResp, _, Codec.fields_iff.2 houter, Codec.fields_iff.2 hinner, ?_⟩
    have hcast : (((level % 2 ^ 64).toNat : Nat) : Int) = level % 2 ^ 64 := by omega
    have hmod : (level % ((2 ^ 64 : Nat) : Int)).bmod (2 ^ 64) = level.bmod (2 ^ 64) := Int.emod_bmod level (2 ^ 64)
    rw [hcast]
    refine hmod.trans ?_
    exact Int.bmod_eq_of_le (by omega) (by omega)

/-- UNLOCK behind a field 5, and the token's part behind the level. -/
theorem authDecoding_exact_unlock :
    parseAuthRequestFromFromVCSEC wire [0x28, 7, 0x1A, 7, 0x18, 1, 0x12, 3, 0x0A, 1, 9] = some { requestedLevel := 1, token := [9] } := by
  have hm : ∀ {fs : List Field} {b : Bytes}, wire.fields b = some fs → IsMessage fs b := Codec.fields_iff.1
  refine (authDecoding_exact wire).1 1 [9] _ ⟨[⟨5, .varint 7⟩, ⟨3, .bytes [0x18, 1, 0x12, 3, 0x0A, 1, 9]⟩], _, hm (by decide), rfl, ?_⟩
  refine ⟨[⟨3, .varint 1⟩, ⟨2, .bytes [0x0A, 1, 9]⟩], 1, hm (by decide), rfl, by decide, .inl ⟨_, rfl, ?_⟩⟩
  exact ⟨[⟨1, .bytes [9]⟩], hm (by decide), .inl rfl⟩

end ElectricEel.Session
