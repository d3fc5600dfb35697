import SatWire.Proofs.Frame.Agreement
import SatWire.Proofs.Frame.RoundTrip

/-!
# No octet is read out of bounds

Reading with words is reading: on every buffer that a word can count, every operation of the reader
ends without a trap and with what the decoder answers, fault for fault and message for message.  So
no sum leaves the words, no difference falls below zero, no piece is cut out from outside, no loop
stands still, and no recursion goes deeper than there are octets.

What carries the bounds through the recursion is that whatever is read one level down lies in a
buffer of fewer octets: an element stands behind its length, a frame behind its header.
-/

namespace SatWire.Wordwise

/-- The same fields were read, from as many octets, and the buffer has so many. -/
def Counted (buffer : Bytes) (words : List Field × UInt64) (read : List Field × Nat) : Prop :=
  read = (words.1, words.2.toNat) ∧ words.2.toNat ≤ buffer.length

/-- The same frame was read, its header included, and the buffer holds it. -/
def Framed (octets : Bytes) (words : Message × UInt64) (read : Message × Nat) : Prop :=
  read = (words.1, words.2.toNat) ∧ headerSize ≤ words.2.toNat ∧ words.2.toNat ≤ octets.length

/-- The fields of every shorter buffer are read in bounds. -/
def AgreesBelow (bound : Nat) (inner : Reader) (read : FieldReader) : Prop :=
  ∀ layout buffer, buffer.length < bound → Agrees (Counted buffer) (inner layout buffer)
    (read layout buffer)

/-- A reader that is trusted with long buffers is trusted with short ones. -/
theorem AgreesBelow.mono {bound bound' : Nat} {inner : Reader} {read : FieldReader}
    (h : AgreesBelow bound inner read) (hle : bound' ≤ bound) : AgreesBelow bound' inner read :=
  fun layout buffer hless => h layout buffer (Nat.lt_of_lt_of_le hless hle)

section Readers

variable {buffer : Bytes} {offset : UInt64} {inner : Reader} {read : FieldReader}

/-- The fields that a piece holds, if they take it up wholly.  `other` and `other'` tell what is
declined if they do not. -/
theorem filled_agrees {δ : Type} {x : Attempt (List Field × UInt64)}
    {r : Except ParseError (List Field × Nat)} {piece : Bytes} {count : UInt64}
    (hread : Agrees (Counted piece) x r) (hcount : piece.length = count.toNat)
    (make : List Field → δ) (other : UInt64 → Attempt (List Field))
    (other' : Nat → Except ParseError δ)
    (hother : ∀ taken, taken.toNat ≤ piece.length →
      Agrees (fun fields made => made = make fields) (other taken) (other' taken.toNat)) :
    Agrees (fun fields made => made = make fields)
      (x >>= fun words => if words.2 = count then pure words.1 else other words.2)
      (r.bind fun read =>
        if read.2 = piece.length then .ok (make read.1) else other' read.2) := by
  refine hread.bind ?_
  rintro ⟨fields, taken⟩ _ ⟨rfl, hwithin⟩
  refine .ite ?_ (fun _ => rfl) fun _ => hother taken hwithin
  rw [hcount]
  exact UInt64.toNat_inj.symm

/-- What a part of a buffer leaves over is a difference that does not fall below zero. -/
theorem excess_agrees {α β : Type} {R : α → β → Prop} (hsmall : buffer.length < UInt64.size)
    (taken : UInt64) (hwithin : taken.toNat ≤ buffer.length) (cause : Nat → ParseError.Cause) :
    Agrees R (sub (size buffer) taken >>= fun left => .decline (cause left.toNat))
      (refuse (cause (buffer.length - taken.toNat))) := by
  have hsize := toNat_size hsmall
  have hle : taken ≤ size buffer := by
    rw [UInt64.le_iff_toNat_le, hsize]
    exact hwithin
  rw [sub_bind hle, UInt64.toNat_sub_of_le _ _ hle, hsize]
  exact .decline _

/-- Where a word points behind the end, nothing is left. -/
theorem rest_eq_nil_iff (hsmall : buffer.length < UInt64.size) :
    (Cursor.ofOffset buffer offset.toNat).rest = [] ↔ size buffer ≤ offset := by
  rw [Cursor.ofOffset, List.drop_eq_nil_iff, UInt64.le_iff_toNat_le, toNat_size hsmall]

/-- Fields are read in bounds one by one if each of them is, wherever it stands. -/
theorem readEach_agrees {one : FieldType → UInt64 → Attempt (Field × UInt64)}
    {one' : FieldType → Cursor → Except ParseError (Field × Cursor)}
    (hsmall : buffer.length < UInt64.size)
    (hone : ∀ type offset, offset.toNat < buffer.length →
      Agrees (Ahead buffer offset) (one type offset) (one' type (.ofOffset buffer offset.toNat)))
    (ds : List FieldDef) (offset : UInt64) (hplace : offset.toNat ≤ buffer.length) :
    Agrees
      (fun words read => read = (words.1, .ofOffset buffer words.2.toNat)
        ∧ words.2.toNat ≤ buffer.length)
      (readEach one buffer ds offset)
      (SatWire.readEach one' ds (.ofOffset buffer offset.toNat)) := by
  induction ds generalizing offset with
  | nil => exact ⟨rfl, hplace⟩
  | cons d ds ih =>
      rw [readEach, readEach_cons_eq_bind]
      refine .ite (rest_eq_nil_iff hsmall).symm (fun _ => ?_) fun hend => ?_
      · exact .ite Iff.rfl (fun _ => ih offset hplace) fun _ => .decline _
      · have hleft : offset.toNat < buffer.length := by
          rw [UInt64.le_iff_toNat_le, toNat_size hsmall] at hend
          exact Nat.lt_of_not_le hend
        refine ((hone d.type offset hleft).within _).bind ?_
        rintro ⟨f, next⟩ read ⟨rfl, -, hnext⟩
        refine (ih next hnext).bind_map ?_
        rintro ⟨fs, last⟩ read ⟨rfl, hlast⟩
        exact ⟨rfl, hlast⟩

/-- **An element is read in bounds.** -/
theorem readElement_agrees (hsmall : buffer.length < UInt64.size)
    (hinner : AgreesBelow buffer.length inner read) (layout : List FieldDef) :
    Agrees (Ahead buffer offset) (readElement inner layout buffer offset)
      (SatWire.readElement read layout (.ofOffset buffer offset.toNat)) := by
  rw [readElement_eq_bind]
  refine (takeOctet_agrees hsmall _).bind ?_
  rintro index place ⟨rfl, hplace⟩
  have hword : offset.toNat + (1 : UInt64).toNat < UInt64.size :=
    Nat.lt_of_le_of_lt hplace hsmall
  have hone : (offset + 1).toNat = offset.toNat + 1 := toNat_add hword
  dsimp only
  rw [add_bind hword, ← hone]
  refine block_agrees hsmall _ _ ?_ ?_
  · intro hthree next
    rw [hone] at hthree
    rw [add_bind (Nat.lt_of_le_of_lt hthree hsmall), UInt64.add_assoc]
    rfl
  · intro count piece hlength hstart hend
    rw [hone] at hstart hend
    rw [hone]
    refine ((filled_agrees (hinner layout piece (by omega)) hlength
      (fun fields => ((⟨index, fields⟩ : Element),
        Cursor.ofOffset buffer (offset.toNat + 1 + 2 + count.toNat)))
      (fun taken => .decline (.elementSize count.toNat taken.toNat))
      (fun taken => refuse (.elementSize piece.length taken)) ?_).within _).bind_left ?_
    · intro taken _
      rw [hlength]
      exact .decline _
    rintro fields taken rfl
    have hsum : (offset + 1 + 2).toNat + count.toNat < UInt64.size := by
      omega
    rw [add_bind hsum]
    exact ahead_of_add hsmall (by rw [hstart]) (by omega) hend

/-- Elements are read in bounds, up to the end of their block. -/
theorem readElements_agrees {body : Bytes} (hsmall : body.length < UInt64.size)
    (hinner : AgreesBelow body.length inner read) (layout : List FieldDef) (count : Nat)
    (place : UInt64) :
    Agrees Eq (readElements inner layout body count place)
      (SatWire.readElements read layout count (.ofOffset body place.toNat)) := by
  rw [readElements, readElements_eq_bind]
  by_cases hleft : place < size body
  · have hrest : (Cursor.ofOffset body place.toNat).rest ≠ [] := by
      rw [Ne, rest_eq_nil_iff hsmall, UInt64.not_le]
      exact hleft
    rw [dif_pos hleft, if_neg hrest]
    refine ((readElement_agrees hsmall hinner layout).within _).bind ?_
    rintro ⟨e, next⟩ taken ⟨rfl, hahead, hend⟩
    dsimp only
    rw [dif_pos hahead]
    refine (readElements_agrees hsmall hinner layout (count + 1) next).bind_map ?_
    rintro es es' rfl
    exact rfl
  · have hrest : (Cursor.ofOffset body place.toNat).rest = [] := by
      rw [rest_eq_nil_iff hsmall]
      exact UInt64.not_lt.mp hleft
    rw [dif_neg hleft, if_pos hrest]
    exact rfl
termination_by body.length - place.toNat
decreasing_by
  rw [UInt64.lt_iff_toNat_lt] at hahead
  dsimp only at hahead hend
  omega

/-- **An array is read in bounds.** -/
theorem readArray_agrees (hsmall : buffer.length < UInt64.size)
    (hinner : AgreesBelow buffer.length inner read) (layout : List FieldDef) :
    Agrees (Ahead buffer offset) (readArray inner layout buffer offset)
      (SatWire.readArray read layout (.ofOffset buffer offset.toNat)) := by
  rw [readArray_eq_bind]
  refine block_agrees hsmall _ _ ?_ ?_
  · intro htwo
    exact add_bind (Nat.lt_of_le_of_lt htwo hsmall)
  · intro count piece hlength hstart hend
    have hword : piece.length < UInt64.size := by
      omega
    have helements := readElements_agrees hword (hinner.mono (by omega)) layout 0 0
    refine helements.bind_map ?_
    rintro es es' rfl
    have hsum : (offset + 2).toNat + count.toNat < UInt64.size := by
      omega
    rw [add_bind hsum]
    exact ahead_of_add hsmall (by rw [hstart]) (by omega) hend

end Readers

section Frames

variable {octets : Bytes} {registry : Registry} {inner : Reader} {read : FieldReader}

/-- The same header was read and the same payload found, which the octets hold behind it. -/
def Parsed (octets : Bytes) (words : Header × Bytes) (read : Header × Bytes × Bytes) : Prop :=
  read.1 = words.1 ∧ read.2.1 = words.2 ∧ words.2.length = words.1.payloadLength.toNat
    ∧ words.1.frameLength ≤ octets.length

/-- **A header is read in bounds.** -/
theorem parse_agrees (hsmall : octets.length < UInt64.size) :
    Agrees (Parsed octets) (parse octets) (Header.parse octets) := by
  rcases octets with _ | ⟨s, _ | ⟨i, _ | ⟨l₁, _ | ⟨l₀, _ | ⟨c₁, _ | ⟨c₀, body⟩⟩⟩⟩⟩⟩
  case cons.cons.cons.cons.cons.cons =>
    have hlong : ¬ size (s :: i :: l₁ :: l₀ :: c₁ :: c₀ :: body) < 6 := by
      rw [UInt64.lt_iff_toNat_lt, toNat_size hsmall]
      exact Nat.not_lt_of_le (Nat.le_add_left 6 body.length)
    have hless : BigEndian.toNat [l₁, l₀] < UInt16.size := BigEndian.toNat_lt [l₁, l₀]
    rw [parse, if_neg hlong, Header.parse]
    -- The octets in front are there; what is left is the look for the payload.
    change Agrees _ (Attempt.unlessFault _ (take _ 6 _ _) >>= _) _
    generalize BigEndian.toNat [l₁, l₀] = declared at hless
    have hlength : (UInt16.ofNat declared).toNat = declared := UInt16.toNat_ofNat_of_lt' hless
    have hcount : (UInt16.ofNat declared).toUInt64.toNat = declared := by
      rw [UInt16.toNat_toUInt64, hlength]
    by_cases hfull : declared ≤ body.length
    · have hpayload : (body.take declared).length = declared := by
        rw [List.length_take, Nat.min_eq_left hfull]
      have hframe : headerSize + declared ≤ body.length + 6 :=
        Nat.le_trans (Nat.add_le_add_left hfull 6) (Nat.add_comm 6 _).le
      have htake := take_of_le hsmall 6 (UInt16.ofNat declared).toUInt64 .bytes
        (by rw [hcount]; exact hframe)
      rw [htake, hcount, if_pos hpayload]
      refine .ite Iff.rfl (fun _ => ⟨rfl, rfl, hpayload.trans hlength.symm, ?_⟩) fun _ => .decline _
      change headerSize + (UInt16.ofNat declared).toNat ≤ _
      rw [hlength]
      exact hframe
    · have hpayload : ¬ (body.take declared).length = declared := by
        rw [List.length_take]
        omega
      have hcut : body.length + 6 < headerSize + declared :=
        (Nat.add_comm _ 6).trans_lt (Nat.add_lt_add_left (Nat.lt_of_not_le hfull) 6)
      have htake := take_of_lt hsmall 6 (UInt16.ofNat declared).toUInt64 .bytes
        (by rw [hcount]; exact hcut)
      rw [htake, if_neg hpayload]
      change Agrees _ ((sub _ 6 >>= _) >>= _) _
      rw [hlength]
      exact (excess_agrees hsmall 6 (Nat.le_add_left 6 body.length) (.payloadCut declared)).bind_left
        fun _ _ himpossible => False.elim himpossible
  all_goals exact .decline _

/-- **A frame is read in bounds.** -/
theorem readFrame_agrees (hsmall : octets.length < UInt64.size)
    (hinner : AgreesBelow octets.length inner read) :
    Agrees (Framed octets) (readFrame registry inner octets)
      (SatWire.readFrame registry read octets) := by
  rw [readFrame_eq_bind]
  refine (parse_agrees hsmall).bind ?_
  rintro ⟨_, _⟩ ⟨header, payload, rest⟩ ⟨rfl, rfl, hlength, hframe⟩
  dsimp only at hlength hframe ⊢
  have hentry : Agrees Eq (Attempt.ended (registry.lookup header.serviceId header.messageId))
      (registry.lookup header.serviceId header.messageId) := by
    cases registry.lookup header.serviceId header.messageId <;> exact rfl
  refine hentry.bind ?_
  rintro entry _ rfl
  have hbelow : payload.length < octets.length := by
    rw [hlength]
    exact Nat.lt_of_lt_of_le (Nat.lt_add_of_pos_left (by decide)) hframe
  have hsize := toNat_size (Nat.lt_trans hbelow hsmall)
  refine ((filled_agrees (hinner entry.fields payload hbelow) hsize.symm
    (fun fields => (({ serviceId := header.serviceId, messageId := header.messageId,
                       isForward := decide (entry.direction = .forward), fields,
                       name := some entry.name } : Message), header.frameLength))
    (fun taken => do
      let left ← sub (size payload) taken
      .decline (.payloadLeft left.toNat))
    (fun taken => refuse (.payloadLeft (payload.length - taken))) ?_).within _).bind_left ?_
  · intro taken hwithin
    exact excess_agrees (Nat.lt_trans hbelow hsmall) taken hwithin .payloadLeft
  rintro fields _ rfl
  have hword : (6 : UInt64).toNat + header.payloadLength.toUInt64.toNat = header.frameLength := by
    rw [UInt16.toNat_toUInt64]
    rfl
  have hsum := hword.trans_lt (Nat.lt_of_le_of_lt hframe hsmall)
  have htotal := (toNat_add hsum).trans hword
  rw [add_bind hsum]
  refine ⟨?_, ?_, ?_⟩
  · rw [htotal]
  · rw [htotal]
    exact Nat.le_add_right _ _
  · rw [htotal]
    exact hframe

end Frames

section Fields

variable {registry : Registry} {limit depth : UInt64} {buffer : Bytes}

/-- One level further down, if the limit allows it: then the next depth is a word. -/
theorem descend_agrees {γ δ : Type} {S : γ → δ → Prop} {f : UInt64 → Attempt γ}
    {g : FieldReader → Except ParseError δ} {d : Decoder} (hlimit : d.limit = limit.toNat)
    (hnext : Agrees S (f (depth + 1)) (g (d.readFields (limit.toNat - (depth + 1).toNat)))) :
    Agrees S
      (do
        checkDepth limit depth
        let deeper ← add depth 1
        f deeper)
      (match d.inner (limit.toNat - depth.toNat) with
        | none => refuse (.tooDeep d.limit)
        | some read => g read) := by
  rw [checkDepth]
  by_cases hdeep : limit ≤ depth
  · have hnone : limit.toNat - depth.toNat = 0 :=
      Nat.sub_eq_zero_of_le (UInt64.le_iff_toNat_le.mp hdeep)
    rw [if_pos hdeep, hnone, hlimit]
    exact .decline _
  · have hword : depth.toNat + (1 : UInt64).toNat < UInt64.size :=
      Nat.lt_of_le_of_lt (Nat.lt_of_not_le (hdeep ∘ UInt64.le_iff_toNat_le.mpr))
        (UInt64.toNat_lt limit)
    have hsome : limit.toNat - depth.toNat = limit.toNat - (depth + 1).toNat + 1 := by
      rw [UInt64.le_iff_toNat_le] at hdeep
      rw [toNat_add hword]
      change _ = limit.toNat - (depth.toNat + 1) + 1
      omega
    rw [if_neg hdeep, hsome]
    change Agrees S (add depth 1 >>= f) _
    rw [add_bind hword]
    exact hnext

/-- **A field is read in bounds**, if the fields one level down are. -/
theorem readField_agrees {inner : UInt64 → Reader} (hsmall : buffer.length < UInt64.size)
    (hinner : ∀ deeper, AgreesBelow buffer.length (inner deeper)
      (Decoder.readFields ⟨registry, limit.toNat⟩ (limit.toNat - deeper.toNat)))
    (type : FieldType) (offset : UInt64) :
    Agrees (Ahead buffer offset) (readField registry limit inner depth buffer type offset)
      (Decoder.readField ⟨registry, limit.toNat⟩
        (Decoder.inner ⟨registry, limit.toNat⟩ (limit.toNat - depth.toNat)) type
        (.ofOffset buffer offset.toNat)) := by
  cases type with
  | array layout =>
      refine descend_agrees rfl ?_
      refine (readArray_agrees hsmall (hinner _) layout).bind_map ?_
      rintro ⟨es, next⟩ read ⟨rfl, hahead⟩
      exact ⟨rfl, hahead⟩
  | message =>
      refine descend_agrees rfl ?_
      have hlength : (buffer.drop offset.toNat).length = buffer.length - offset.toNat :=
        List.length_drop
      refine (readFrame_agrees (by omega) ((hinner _).mono (by omega))).bind_map ?_
      rintro ⟨m, consumed⟩ read ⟨rfl, hheader, hframe⟩
      have hsix : 6 ≤ consumed.toNat := hheader
      dsimp only at hframe ⊢
      rw [add_bind (by omega), skip_ofOffset]
      exact ahead_of_add hsmall rfl (by omega) (by omega)
  | uint | int | bool | text | bytes | enum =>
      refine (decodeScalar_agrees hsmall _).bind_map ?_
      rintro ⟨value, next⟩ read ⟨rfl, hahead⟩
      exact ⟨rfl, hahead⟩

/-- Fields are read in bounds, if the fields one level down are. -/
theorem readEach_readField_agrees {inner : UInt64 → Reader} (hsmall : buffer.length < UInt64.size)
    (hinner : ∀ deeper, AgreesBelow buffer.length (inner deeper)
      (Decoder.readFields ⟨registry, limit.toNat⟩ (limit.toNat - deeper.toNat)))
    (ds : List FieldDef) :
    Agrees (Counted buffer) (readEach (readField registry limit inner depth buffer) buffer ds 0)
      (Decoder.readFields ⟨registry, limit.toNat⟩ (limit.toNat - depth.toNat) ds buffer) := by
  rw [Decoder.readFields_eq]
  have hone : ∀ type offset, offset.toNat < buffer.length → Agrees (Ahead buffer offset)
      (readField registry limit inner depth buffer type offset)
      (Decoder.readField ⟨registry, limit.toNat⟩
        (Decoder.inner ⟨registry, limit.toNat⟩ (limit.toNat - depth.toNat)) type
        (.ofOffset buffer offset.toNat)) :=
    fun type offset _ => readField_agrees hsmall hinner type offset
  refine (readEach_agrees hsmall hone ds 0 (Nat.zero_le _)).map_right ?_
  rintro ⟨fs, last⟩ read ⟨rfl, hlast⟩
  exact ⟨rfl, hlast⟩

/-- **Fields are read in bounds**, and a level of the stack for each octet is enough. -/
theorem readFields_agrees {stack : Nat} (hstack : buffer.length ≤ stack)
    (hsmall : buffer.length < UInt64.size) (ds : List FieldDef) :
    Agrees (Counted buffer) (readFields registry limit stack depth ds buffer)
      (Decoder.readFields ⟨registry, limit.toNat⟩ (limit.toNat - depth.toNat) ds buffer) := by
  induction stack generalizing depth ds buffer with
  | zero =>
      -- Nothing is shorter than nothing, so the stack is not asked for a level.
      refine readEach_readField_agrees hsmall ?_ ds
      intro deeper layout body hless
      exact absurd (Nat.lt_of_lt_of_le hless hstack) (Nat.not_lt_zero _)
  | succ stack ih =>
      refine readEach_readField_agrees hsmall ?_ ds
      intro deeper layout body hless
      exact ih (Nat.le_of_lt_succ (Nat.lt_of_lt_of_le hless hstack)) (Nat.lt_trans hless hsmall)
        layout

/-- With a level of the stack for each octet, every shorter buffer is read in bounds. -/
theorem agreesBelow_readFields {stack : Nat} (hstack : buffer.length ≤ stack)
    (hsmall : buffer.length < UInt64.size) (depth : UInt64) :
    AgreesBelow buffer.length (readFields registry limit stack depth)
      (Decoder.readFields ⟨registry, limit.toNat⟩ (limit.toNat - depth.toNat)) :=
  fun layout _ hless =>
    readFields_agrees (Nat.le_trans hless.le hstack) (Nat.lt_trans hless hsmall) layout

/-- **Octets that are one frame are read in bounds**, whatever the limit. -/
theorem decode_eq_ended (hsmall : buffer.length < UInt64.size) :
    decode registry limit buffer = .ended (Decoder.decode ⟨registry, limit.toNat⟩ buffer) := by
  have hprefix : Agrees (Framed buffer) (decodePrefix registry limit buffer)
      (Decoder.decodePrefix ⟨registry, limit.toNat⟩ buffer) :=
    readFrame_agrees hsmall (agreesBelow_readFields (Nat.le_refl _) hsmall 0)
  refine Agrees.eq_ended ?_
  rw [Decoder.decode_eq_bind]
  refine hprefix.bind ?_
  rintro ⟨m, consumed⟩ _ ⟨rfl, -, hframe⟩
  dsimp only at hframe ⊢
  refine .ite ?_ (fun _ => rfl) fun _ => ?_
  · rw [← UInt64.toNat_inj, toNat_size hsmall]
  · exact excess_agrees hsmall consumed hframe fun extra => .frameFollowed extra consumed.toNat

end Fields

/-- What it is for a buffer to be read in bounds: no part of the reader meets a trap, each does as
the decoder has it, and where it comes to an end it is in the buffer, ahead of where it started.
The limit is any word, and so are depths and places. -/
structure ReadsInBounds (registry : Registry) (limit : UInt64) (stack : Nat) (buffer : Bytes) :
    Prop where
  /-- Pieces are cut out from every place in the buffer, in any size. -/
  piece : ∀ (offset count : UInt64) (part : Part), offset.toNat ≤ buffer.length →
    Agrees (Taken buffer offset.toNat count.toNat) (take buffer offset count part)
      ((Cursor.ofOffset buffer offset.toNat).take count.toNat part)
  block : ∀ (offset : UInt64) (length body : Part),
    Agrees (Ahead buffer offset) (takeBlock buffer offset length body)
      ((Cursor.ofOffset buffer offset.toNat).takeBlock length body)
  scalar : ∀ (offset : UInt64) (type : FieldType),
    Agrees (Ahead buffer offset) (decodeScalar buffer offset type)
      (Scalar.decode (.ofOffset buffer offset.toNat) type)
  element : ∀ (depth offset : UInt64) (layout : List FieldDef),
    Agrees (Ahead buffer offset)
      (readElement (readFields registry limit stack depth) layout buffer offset)
      (SatWire.readElement
        (Decoder.readFields ⟨registry, limit.toNat⟩ (limit.toNat - depth.toNat)) layout
        (.ofOffset buffer offset.toNat))
  array : ∀ (depth offset : UInt64) (layout : List FieldDef),
    Agrees (Ahead buffer offset)
      (readArray (readFields registry limit stack depth) layout buffer offset)
      (SatWire.readArray
        (Decoder.readFields ⟨registry, limit.toNat⟩ (limit.toNat - depth.toNat)) layout
        (.ofOffset buffer offset.toNat))
  field : ∀ (depth offset : UInt64) (type : FieldType),
    Agrees (Ahead buffer offset)
      (readField registry limit (readFields registry limit stack) depth buffer type offset)
      (Decoder.readField ⟨registry, limit.toNat⟩
        (Decoder.inner ⟨registry, limit.toNat⟩ (limit.toNat - depth.toNat)) type
        (.ofOffset buffer offset.toNat))
  fields : ∀ (depth : UInt64) (ds : List FieldDef),
    Agrees (Counted buffer) (readFields registry limit stack depth ds buffer)
      (Decoder.readFields ⟨registry, limit.toNat⟩ (limit.toNat - depth.toNat) ds buffer)
  header : Agrees (Parsed buffer) (parse buffer) (Header.parse buffer)
  /-- A frame is read at every depth; at depth zero this is the front of a stream of octets. -/
  frame : ∀ depth : UInt64,
    Agrees (Framed buffer) (readFrame registry (readFields registry limit stack depth) buffer)
      (SatWire.readFrame registry
        (Decoder.readFields ⟨registry, limit.toNat⟩ (limit.toNat - depth.toNat)) buffer)
  whole : decode registry limit buffer = .ended (Decoder.decode ⟨registry, limit.toNat⟩ buffer)

/-- **No buffer makes the reader leave it**, nor leave the words, for any registry and any limit.
The stack needs a level for each octet, however many the limit allows. -/
theorem reads_in_bounds (registry : Registry) (limit : UInt64) {stack : Nat} {buffer : Bytes}
    (hsmall : buffer.length < UInt64.size) (hstack : buffer.length ≤ stack) :
    ReadsInBounds registry limit stack buffer where
  piece offset count part hplace := take_agrees hsmall offset count part (.inr hplace)
  block _ length body :=
    (takeBlock_agrees hsmall length body).mono fun _ _ hblock => hblock.1
  scalar _ type := decodeScalar_agrees hsmall type
  element depth _ layout :=
    readElement_agrees hsmall (agreesBelow_readFields hstack hsmall depth) layout
  array depth _ layout :=
    readArray_agrees hsmall (agreesBelow_readFields hstack hsmall depth) layout
  field _ offset type :=
    readField_agrees hsmall (agreesBelow_readFields hstack hsmall) type offset
  fields _ ds := readFields_agrees hstack hsmall ds
  header := parse_agrees hsmall
  frame depth := readFrame_agrees hsmall (agreesBelow_readFields hstack hsmall depth)
  whole := decode_eq_ended hsmall

/-- An envelope in another, under the greatest limit that a word can set. -/
theorem reads_in_bounds_envelope :
    let octets : Bytes := [1, 1, 0, 8, 184, 212, 1, 1, 1, 0, 1, 238, 249, 1]
    ReadsInBounds envelopes 18446744073709551615 14 octets
      ∧ decode envelopes 18446744073709551615 octets = .ended (.ok (envelope 1))
      ∧ decodeScalar octets 18446744073709551615 .text
        = .decline (.bufferEnds .text 2 18446744073709551615 0) := by
  intro octets
  have hreads : ReadsInBounds envelopes 18446744073709551615 14 octets :=
    reads_in_bounds envelopes 18446744073709551615 (by decide) (by decide)
  have hdecode : Decoder.decode ⟨envelopes, 18446744073709551615⟩ octets = .ok (envelope 1) := by
    decide +kernel
  exact ⟨hreads, hreads.whole.trans (congrArg Attempt.ended hdecode), rfl⟩

end SatWire.Wordwise
