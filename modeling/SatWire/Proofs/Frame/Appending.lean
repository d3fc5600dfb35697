import SatWire.Proofs.Frame.Capacity
import SatWire.Proofs.InPlace

/-!
# Writing into a buffer in place

A writer is handed a buffer and appends to it piece by piece.  Then the order of checks and pieces
matters, for what has been appended stays appended if a later check fails.

A `Scribe` spells out a writer that way.  Elements, arrays and messages are written into a buffer of
their own first, so that their lengths are known, and of what goes wrong in there the caller's buffer
shows nothing (`Scribe.aside`).  Each scribe appends what the writer on values gives, and fails where it
does (`Scribe.Writes`).  What a failing scribe leaves is told by the order of its own pieces alone:

* `Scribe.clean_scalar`, `Scribe.clean_array` — no piece goes in before the last check;
* `Element.write_of_long` — the index of an element goes in before its length is checked, and is left
  behind if the length cannot be told.
-/

namespace SatWire

/-- Values without fields are checked by family and range. -/
theorem FieldType.check_of_plain {type : FieldType} (value : Value)
    (hplain : type.isComposite = false) :
    type.check value = if type.holds value then .ok () else refuse (.misfit value type) := by
  unfold FieldType.check
  split
  · cases hplain
  · rfl

/-- What writes into a buffer in place. -/
abbrev Scribe (α : Type) : Type :=
  InPlace ParseError Bytes α

namespace Scribe

variable {α : Type}

/-- Appends octets. -/
def push (octets : Bytes) : Scribe Unit :=
  modify fun buffer => buffer ++ octets

/-- Goes on with a result, or fails with its fault; the buffer is not touched. -/
def check (r : Except ParseError α) : Scribe α :=
  InPlace.check fun _ => r

/-- Faults are met inside a scope. -/
def within (scope : Scope) (scribe : Scribe α) : Scribe α :=
  ExceptT.adapt (ParseError.within scope) scribe

/-- Writes into a new buffer and tells what is in it at the end. -/
def aside (scribe : Scribe Unit) : Scribe Bytes :=
  check ((scribe.run []).1.map fun _ => (scribe.run []).2)

/-- Appends a length, if sixteen bits can tell it. -/
def length (part : Part) (size : Nat) : Scribe Unit :=
  if size ≤ maxLength then push (BigEndian.ofNat 2 size) else check (refuse (.tooLong part size))

/-- Appends octets behind their length. -/
def block (part : Part) (octets : Bytes) : Scribe Unit := do
  length part octets.length
  push octets

/-- Appends a value without fields: two checks, then what the type asks for. -/
def scalar (type : FieldType) (value : Value) : Scribe Unit := do
  check (if type.isComposite then refuse (.notScalar type) else .ok ())
  check (type.check value)
  match type, value with
  | .uint width, .uint n => push (BigEndian.ofNat width.octets n.toNat)
  | .int width, .int n => push (BigEndian.ofInt width.octets n.toInt)
  | .bool, .bool b => push [if b then 1 else 0]
  | .enum, .enum n => push [n]
  | .text, .text s => block .text (Utf8.encode s)
  | .bytes, .bytes octets => block .bytes octets
  | _, _ => check (refuse (.misfit value type))

mutual

/-- Appends a field. -/
def field : Field → Scribe Unit
  | ⟨type, value⟩ => Scribe.value type value

/-- Appends a value: an array behind its elements' length, a message as its frame, both written
aside. -/
def value (type : FieldType) : Value → Scribe Unit
  | .array es => do
    let body ← aside (elements es)
    block .array body
  | .message inner => do
    let octets ← frame inner
    push octets
  | .uint n => scalar type (.uint n)
  | .int n => scalar type (.int n)
  | .bool b => scalar type (.bool b)
  | .text s => scalar type (.text s)
  | .bytes octets => scalar type (.bytes octets)
  | .enum n => scalar type (.enum n)

/-- Appends fields in order; `position` many stand before them. -/
def fields (position : Nat) : List Field → Scribe Unit
  | [] => pure ()
  | f :: fs => do
    within (.fieldAfter position) (field f)
    fields (position + 1) fs

/-- Appends an element: with its fields written aside, the index goes in, then their length and the
fields. -/
def element : Element → Scribe Unit
  | ⟨index, fs⟩ => do
    let body ← aside (fields 0 fs)
    push [index]
    block .element body

/-- Appends elements in order. -/
def elements : List Element → Scribe Unit
  | [] => pure ()
  | e :: es => do
    within (.element e.index) (element e)
    elements es

/-- The frame of a message, its payload written aside. -/
def frame : Message → Scribe Bytes
  | ⟨serviceId, messageId, _, _, fs, _⟩ => do
    let payload ← within (.messageKey serviceId messageId) (aside (fields 0 fs))
    check (Header.assemble serviceId messageId payload)

end

/-- Appends an array value. -/
def array (es : List Element) : Scribe Unit := do
  let body ← aside (elements es)
  block .array body

/-- A buffer after a scribe was let at it. -/
def on (scribe : Scribe Unit) (buffer : Bytes) : Written :=
  ⟨(scribe.run buffer).2, (scribe.run buffer).1⟩

/-- A check ends with the result, and the buffer is as it was. -/
theorem check_run (r : Except ParseError α) (buffer : Bytes) : (check r).run buffer = (r, buffer) :=
  InPlace.check_run (fun _ => r) buffer

/-- A fault that is checked for inside a scope is met inside it. -/
theorem within_check (scope : Scope) (r : Except ParseError α) :
    within scope (check r) = check (located scope r) := by
  cases r <;> rfl

section Clean

/-- A scribe that fails leaves the buffer as it was. -/
def Clean (scribe : Scribe α) : Prop :=
  ∀ buffer fault, (scribe.run buffer).1 = .error fault → (scribe.run buffer).2 = buffer

variable {β : Type}

/-- Whatever is known to be the same as a clean scribe leaves the buffer as it was, too. -/
theorem Clean.buffer_eq {scribe : Scribe Unit} {written : Written} {buffer : Bytes}
    {fault : ParseError} (hclean : Clean scribe) (hon : scribe.on buffer = written)
    (hfails : written.outcome = .error fault) : written.buffer = buffer := by
  subst hon
  exact hclean buffer fault hfails

/-- What only appends does not fail. -/
theorem clean_push (octets : Bytes) : Clean (push octets) :=
  fun _ _ h => nomatch h

/-- A check does not touch the buffer. -/
theorem clean_check (r : Except ParseError α) : Clean (check r) := by
  intro buffer fault _
  rw [check_run]

/-- What is clean by itself is clean behind something that never touches the buffer. -/
theorem Clean.of_check {r : Except ParseError β} {next : β → Scribe α} (h : ∀ b, Clean (next b)) :
    Clean (check r >>= next) := by
  cases r with
  | ok b => exact h b
  | error fault =>
      intro buffer _ _
      rw [InPlace.bind_of_error (check_run (.error fault) buffer)]

/-- Whatever is written aside, the buffer shows nothing of it. -/
theorem Clean.of_aside {scribe : Scribe Unit} {next : Bytes → Scribe α}
    (h : ∀ body, Clean (next body)) : Clean (aside scribe >>= next) :=
  .of_check h

/-- A length that cannot be told is noticed before anything goes in. -/
theorem clean_block (part : Part) (octets : Bytes) : Clean (block part octets) := by
  intro buffer fault
  unfold block length
  split
  · exact fun h => nomatch h
  · exact fun _ => rfl

/-- **Numbers and texts.**  A value without fields goes in whole or not at all. -/
theorem clean_scalar (type : FieldType) (value : Value) : Clean (scalar type value) := by
  refine .of_check fun _ => .of_check fun _ => ?_
  split
  · exact clean_push _
  · exact clean_push _
  · exact clean_push _
  · exact clean_push _
  · exact clean_block _ _
  · exact clean_block _ _
  · exact clean_check _

/-- **Arrays.**  An array value goes in whole or not at all. -/
theorem clean_array (es : List Element) : Clean (array es) :=
  .of_aside fun body => clean_block .array body

end Clean

section Agreement

/-- The scribe appends what is written elsewhere.  If that fails it fails in the same way, whatever it
leaves in the buffer. -/
def Writes (scribe : Scribe Unit) : Except ParseError Bytes → Prop
  | .ok octets => ∀ buffer, scribe.run buffer = (.ok (), buffer ++ octets)
  | .error fault => ∀ buffer, ∃ left, scribe.run buffer = (.error fault, left)

variable {β : Type} {scribe next : Scribe Unit} {r others : Except ParseError Bytes}

/-- Two checks are the check of both. -/
theorem check_bind_check {γ : Type} (r : Except ParseError β) (f : β → Except ParseError γ) :
    (check r >>= fun b => check (f b)) = check (r.bind f) := by
  cases r <;> rfl

/-- What is appended is written. -/
theorem writes_push (octets : Bytes) : Writes (push octets) (.ok octets) :=
  fun _ => rfl

/-- What is refused is refused at once. -/
theorem writes_refuse (fault : ParseError) : Writes (check (.error fault)) (.error fault) :=
  fun buffer => ⟨buffer, rfl⟩

/-- Nothing is written by doing nothing. -/
theorem writes_pure : Writes (pure ()) (.ok []) :=
  fun buffer => congrArg (Prod.mk _) (List.append_nil buffer).symm

/-- One behind the other. -/
theorem Writes.append (h : Writes scribe r) (h' : Writes next others) :
    Writes (scribe >>= fun _ => next) (r.bind fun first => others.map (first ++ ·)) := by
  cases r with
  | error fault =>
      intro buffer
      obtain ⟨left, hscribe⟩ := h buffer
      exact ⟨left, InPlace.bind_of_error hscribe⟩
  | ok first =>
      cases others with
      | error fault =>
          intro buffer
          obtain ⟨left, hnext⟩ := h' (buffer ++ first)
          exact ⟨left, (InPlace.bind_of_ok (h buffer)).trans hnext⟩
      | ok rest =>
          intro buffer
          rw [InPlace.bind_of_ok (h buffer), h' (buffer ++ first), List.append_assoc]

/-- The place told around a fault changes nothing that is written. -/
theorem Writes.within (scope : Scope) (h : Writes scribe r) :
    Writes (within scope scribe) (located scope r) := by
  cases r with
  | ok octets =>
      intro buffer
      rw [Scribe.within, InPlace.adapt_run, h buffer]
      rfl
  | error fault =>
      intro buffer
      obtain ⟨left, hscribe⟩ := h buffer
      refine ⟨left, ?_⟩
      rw [Scribe.within, InPlace.adapt_run, hscribe]
      rfl

/-- Written aside it is all there, or it is a fault. -/
theorem Writes.aside_eq (h : Writes scribe r) : aside scribe = check r := by
  cases r with
  | ok octets =>
      rw [aside, h []]
      rfl
  | error fault =>
      obtain ⟨left, hscribe⟩ := h []
      rw [aside, hscribe]
      rfl

/-- What a check gives goes on to be written. -/
theorem Writes.of_check {r : Except ParseError β} {next : β → Scribe Unit}
    {write : β → Except ParseError Bytes} (h : ∀ b, Writes (next b) (write b)) :
    Writes (check r >>= next) (r.bind write) := by
  cases r with
  | ok b => exact h b
  | error fault => exact writes_refuse fault

/-- A block is its length and its octets, unless no length can tell how many they are. -/
theorem writes_block (part : Part) (octets : Bytes) :
    Writes (block part octets) (encodeBlock part octets) := by
  unfold block length encodeBlock
  by_cases hshort : octets.length ≤ maxLength
  · rw [if_pos hshort, if_pos hshort]
    exact (writes_push _).append (writes_push _)
  · rw [if_neg hshort, if_neg hshort]
    exact writes_refuse _

/-- A value without fields is checked and then written. -/
theorem writes_scalar (type : FieldType) (value : Value) :
    Writes (scalar type value) (Scalar.encode type value) := by
  unfold scalar Scalar.encode
  by_cases hcomposite : type.isComposite = true
  · rw [if_pos hcomposite, if_pos hcomposite]
    exact writes_refuse _
  · have hplain : type.isComposite = false := Bool.eq_false_iff.mpr hcomposite
    rw [if_neg hcomposite, if_neg hcomposite, FieldType.check_of_plain value hplain]
    by_cases hholds : type.holds value = true
    · rw [if_pos hholds, if_pos hholds]
      cases FieldType.akin_of_holds hholds with
      | uint | int | bool | enum => exact writes_push _
      | text | bytes => exact writes_block _ _
      | message => cases hplain
    · rw [if_neg hholds, if_neg hholds]
      exact writes_refuse _

mutual

/-- A value is written as it is encoded, whether it holds fields or not. -/
theorem writes_value : ∀ (type : FieldType) (value : Value),
    Writes (Scribe.value type value) (Value.encode type value)
  | type, .array es => by
      rw [Scribe.value, Value.encode, (writes_elements es).aside_eq]
      exact .of_check (writes_block .array)
  | type, .message inner => by
      have hwhole : inner.encode.bind .ok = inner.encode := by cases inner.encode <;> rfl
      have hwrites : Writes (check inner.encode >>= push) (inner.encode.bind .ok) :=
        .of_check writes_push
      rw [Scribe.value, Value.encode, frame_eq inner]
      rw [hwhole] at hwrites
      exact hwrites
  | type, .uint n | type, .int n | type, .bool n | type, .text n | type, .bytes n
  | type, .enum n => by
      rw [Scribe.value, Value.encode]
      exact writes_scalar type _

/-- Fields are written one behind the other. -/
theorem writes_fields : ∀ (position : Nat) (fs : List Field),
    Writes (fields position fs) (Field.encodeEach position fs)
  | position, [] => by
      rw [fields, Field.encodeEach]
      exact writes_pure
  | position, ⟨type, value⟩ :: fs => by
      rw [fields, Field.encodeEach_cons_eq_bind, field, Field.encode]
      exact ((writes_value type value).within _).append (writes_fields (position + 1) fs)

/-- An element is its index and the block of its fields, which are encoded before. -/
theorem writes_element : ∀ (e : Element), Writes (element e) (Element.encode e)
  | ⟨index, fs⟩ => by
      rw [element, Element.encode, (writes_fields 0 fs).aside_eq]
      exact .of_check fun body => (writes_push [index]).append (writes_block .element body)

/-- Elements are written one behind the other. -/
theorem writes_elements : ∀ (es : List Element), Writes (elements es) (Element.encodeEach es)
  | [] => by
      rw [elements, Element.encodeEach]
      exact writes_pure
  | e :: es => by
      rw [elements, Element.encodeEach_cons_eq_bind]
      exact ((writes_element e).within _).append (writes_elements es)

/-- A frame is put together aside, so it is whole or it is a fault. -/
theorem frame_eq : ∀ (m : Message), frame m = check m.encode
  | ⟨serviceId, messageId, category, isForward, fs, name⟩ => by
      rw [frame, Message.encode_eq_bind, (writes_fields 0 fs).aside_eq, within_check]
      exact check_bind_check (located (.messageKey serviceId messageId) (Field.encodeEach 0 fs))
        (Header.assemble serviceId messageId)

end

/-- A scribe that is clean either appends the whole or leaves the buffer as it was. -/
theorem on_eq_append (hwrites : Writes scribe r) (hclean : Clean scribe) (buffer : Bytes) :
    scribe.on buffer = .append buffer r := by
  cases r with
  | ok octets =>
      rw [on, hwrites buffer]
      rfl
  | error fault =>
      obtain ⟨left, hscribe⟩ := hwrites buffer
      have hleft := hclean buffer fault (congrArg Prod.fst hscribe)
      rw [hscribe] at hleft
      obtain rfl := hleft
      rw [on, hscribe]
      rfl

/-- A buffer gets a value without fields whole, or nothing. -/
theorem on_scalar (type : FieldType) (value : Value) (buffer : Bytes) :
    (scalar type value).on buffer = Scalar.write type value buffer :=
  on_eq_append (writes_scalar type value) (clean_scalar type value) buffer

/-- An array is the block of its elements, which are encoded aside. -/
theorem writes_array (es : List Element) : Writes (array es) (Element.encodeArray es) := by
  rw [array, (writes_elements es).aside_eq]
  exact .of_check (writes_block .array)

/-- A buffer gets an array whole, or nothing. -/
theorem on_array (es : List Element) (buffer : Bytes) :
    (array es).on buffer = Element.writeArray es buffer :=
  on_eq_append (writes_array es) (clean_array es) buffer

/-- The index of an element is in the buffer before the length of the fields is checked. -/
theorem on_element (e : Element) (buffer : Bytes) : (element e).on buffer = e.write buffer := by
  obtain ⟨index, fs⟩ := e
  rw [element, (writes_fields 0 fs).aside_eq, Element.write]
  cases Field.encodeEach 0 fs with
  | error fault => rfl
  | ok body => exact on_eq_append (writes_block .element body) (clean_block .element body) _

end Agreement

end Scribe

section Elements

variable {e : Element} {body : Bytes} {fault : ParseError}

/-- An element whose fields cannot be encoded leaves the buffer alone. -/
theorem Element.write_of_error (hfields : Field.encodeEach 0 e.fields = .error fault)
    (buffer : Bytes) : e.write buffer = ⟨buffer, .error fault⟩ := by
  rw [Element.write, hfields]

/-- With its fields encoded, an element goes in behind its index. -/
theorem Element.write_of_ok (hfields : Field.encodeEach 0 e.fields = .ok body) (buffer : Bytes) :
    e.write buffer = .append (buffer ++ [e.index]) (encodeBlock .element body) := by
  rw [Element.write, hfields]

/-- **The index is left behind** where the fields are encoded but no length tells how long they are. -/
theorem Element.write_of_long (hfields : Field.encodeEach 0 e.fields = .ok body)
    (hlong : maxLength < body.length) (buffer : Bytes) :
    e.write buffer = ⟨buffer ++ [e.index], refuse (.tooLong .element body.length)⟩ := by
  rw [Element.write_of_ok hfields, encodeBlock, if_neg (Nat.not_le.mpr hlong)]
  rfl

/-- **A well-typed element** is written exactly if its fields fit as a whole.  If they do not, it fails
for its size, and what it leaves is told by the fields one by one. -/
theorem Element.write_wellTyped (htyped : e.WellTyped) (buffer : Bytes) :
    ((∃ fault, (e.write buffer).outcome = .error fault) ↔ maxLength < Field.totalSize e.fields)
      ∧ ∀ fault, (e.write buffer).outcome = .error fault → fault.kind = .invalidSize
          ∧ (e.write buffer).buffer
            = if ∀ f ∈ e.fields, f.value.content ≤ maxLength then buffer ++ [e.index] else buffer := by
  have hfields : Field.AllWellTyped e.fields := by
    obtain ⟨index, fields⟩ := e
    rw [Element.WellTyped] at htyped
    exact htyped
  cases Field.takesEach e.fields 0 hfields with
  | tooLong hroom hfails =>
      obtain ⟨fault, hfault, hkind⟩ := hfails
      have hlong : maxLength < Field.totalSize e.fields :=
        Nat.not_le.mp fun hwhole => hroom (Field.content_le hwhole)
      rw [Element.write_of_error hfault, if_neg hroom]
      refine ⟨iff_of_true ⟨fault, rfl⟩ hlong, ?_⟩
      rintro _ ⟨⟩
      exact ⟨hkind, rfl⟩
  | whole body hroom hwritten hlength =>
      rw [if_pos hroom, ← hlength]
      by_cases hlong : maxLength < body.length
      · rw [Element.write_of_long hwritten hlong]
        refine ⟨iff_of_true ⟨_, rfl⟩ hlong, ?_⟩
        rintro _ ⟨⟩
        exact ⟨rfl, rfl⟩
      · have hblock : encodeBlock .element body = .ok (block body) :=
          encodeBlock_eq_ok_iff.mpr ⟨Nat.not_lt.mp hlong, rfl⟩
        rw [Element.write_of_ok hwritten, hblock]
        refine ⟨iff_of_false ?_ hlong, ?_⟩
        · rintro ⟨_, ⟨⟩⟩
        · rintro _ ⟨⟩

end Elements

/-- **What a failing writer leaves.**  Let at a buffer piece by piece, a value without fields and an
array value leave it as they found it if they fail, whatever is wrong with them.  So does an element
whose fields fit their types, if a field is too long for its own length; but if each field can be told
and only all of them together are too long, the index of the element is left behind. -/
theorem left_by_failing (buffer : Bytes) :
    (∀ (type : FieldType) (value : Value),
      (Scribe.scalar type value).on buffer = Scalar.write type value buffer
        ∧ ∀ fault, (Scalar.write type value buffer).outcome = .error fault →
            (Scalar.write type value buffer).buffer = buffer)
      ∧ (∀ es : List Element,
          (Scribe.array es).on buffer = Element.writeArray es buffer
            ∧ ∀ fault, (Element.writeArray es buffer).outcome = .error fault →
                (Element.writeArray es buffer).buffer = buffer)
      ∧ ∀ e : Element,
          (Scribe.element e).on buffer = e.write buffer
            ∧ (e.WellTyped →
                ((∃ fault, (e.write buffer).outcome = .error fault)
                  ↔ 65535 < Field.totalSize e.fields)
                ∧ ∀ fault, (e.write buffer).outcome = .error fault → fault.kind = .invalidSize
                    ∧ (e.write buffer).buffer
                      = if ∀ f ∈ e.fields, f.value.content ≤ 65535 then buffer ++ [e.index]
                        else buffer) := by
  refine ⟨?_, ?_, ?_⟩
  · intro type value
    have hon := Scribe.on_scalar type value buffer
    exact ⟨hon, fun _ hfails => (Scribe.clean_scalar type value).buffer_eq hon hfails⟩
  · intro es
    have hon := Scribe.on_array es buffer
    exact ⟨hon, fun _ hfails => (Scribe.clean_array es).buffer_eq hon hfails⟩
  · intro e
    exact ⟨Scribe.on_element e buffer, fun htyped => Element.write_wellTyped htyped buffer⟩

section Bulky

/-- An element with so many octets in its only field. -/
def bulky (count : Nat) : Element :=
  ⟨6, [.bytes (List.replicate count 0)]⟩

/-- However many the octets, their field fits its type. -/
theorem wellTyped_bulky (count : Nat) : (bulky count).WellTyped := by
  simp [bulky, Element.WellTyped, Field.AllWellTyped, Field.WellTyped, Value.WellTyped, Field.bytes,
    FieldType.check, FieldType.holds]

theorem totalSize_bulky (count : Nat) : Field.totalSize (bulky count).fields = 2 + count := by
  simp only [bulky, Field.totalSize, Field.size, Value.size, Field.bytes, List.length_replicate,
    Nat.add_zero]

/-- The octets alone have room where a length can tell how many they are. -/
theorem content_bulky {count : Nat} :
    (∀ f ∈ (bulky count).fields, f.value.content ≤ 65535) ↔ count ≤ 65535 := by
  simp only [bulky, List.forall_mem_singleton, Field.bytes, Value.content, List.length_replicate]

/-- An element of 65534 octets behind their length is refused, and a buffer of one octet has two
afterwards. -/
theorem index_left_behind :
    (bulky 65534).WellTyped
      ∧ ((bulky 65534).write [1]).outcome = refuse (.tooLong .element 65536)
      ∧ ((bulky 65534).write [1]).buffer = [1, 6] ∧ ((bulky 65534).write [1]).buffer ≠ [1] := by
  have hroom := content_bulky.mpr (Nat.le_succ 65534)
  have htakes := Field.takesEach (bulky 65534).fields 0 (wellTyped_bulky 65534)
  obtain ⟨body, hwritten⟩ := htakes.isOk_iff.mpr hroom
  have hlength : body.length = 65536 := (htakes.length_eq hwritten).trans (totalSize_bulky 65534)
  have hlong : maxLength < body.length := by
    rw [hlength]
    decide
  rw [Element.write_of_long hwritten hlong, hlength]
  exact ⟨wellTyped_bulky 65534, rfl, rfl, by decide⟩

/-- A write that fails elsewhere fails. -/
theorem Written.append_fails {r : Except ParseError Bytes} {kind : ParseError.Kind}
    (hfails : FailsAs r kind) (buffer : Bytes) :
    ∃ fault, (Written.append buffer r).outcome = .error fault := by
  obtain ⟨fault, rfl, -⟩ := hfails
  exact ⟨fault, rfl⟩

/-- Octets that are too many for a length, an array of an element that is too long, that element by
itself, and one whose only field is too long. -/
theorem left_by_failing_bulky :
    let octets : Value := .bytes (List.replicate 65536 0)
    ((∃ fault, (Scalar.write .bytes octets [1]).outcome = .error fault)
        ∧ (Scalar.write .bytes octets [1]).buffer = [1])
      ∧ ((∃ fault, (Element.writeArray [bulky 65534] [1]).outcome = .error fault)
        ∧ (Element.writeArray [bulky 65534] [1]).buffer = [1])
      ∧ ((∃ fault, ((bulky 65534).write [1]).outcome = .error fault)
        ∧ ((bulky 65534).write [1]).buffer = [1, 6])
      ∧ ((∃ fault, ((bulky 65536).write [1]).outcome = .error fault)
        ∧ ((bulky 65536).write [1]).buffer = [1]) := by
  intro octets
  obtain ⟨hscalar, harray, helement⟩ := left_by_failing [1]
  have hbytes : FailsAs (Scalar.encode .bytes octets) .invalidSize := by
    have htakes : Takes (Scalar.encode .bytes octets) _ _ := Scalar.takes rfl nofun nofun
    have hcontent : octets.content = 65536 := List.length_replicate
    rw [hcontent] at htakes
    exact htakes.fails (by decide)
  have helements : FailsAs (Element.encodeArray [bulky 65534]) .invalidSize := by
    have htyped : Element.AllWellTyped [bulky 65534] := ⟨wellTyped_bulky 65534, trivial⟩
    refine ((Element.takesEach [bulky 65534] htyped).fails ?_).bind _
    rw [List.forall_mem_singleton, totalSize_bulky]
    decide
  have hscalarFails := Written.append_fails hbytes [1]
  have harrayFails := Written.append_fails helements [1]
  obtain ⟨hfails, hleft⟩ := (helement (bulky 65534)).2 (wellTyped_bulky 65534)
  obtain ⟨hfails', hleft'⟩ := (helement (bulky 65536)).2 (wellTyped_bulky 65536)
  rw [totalSize_bulky] at hfails hfails'
  simp only [content_bulky] at hleft hleft'
  refine ⟨⟨hscalarFails, ?_⟩, ⟨harrayFails, ?_⟩, ⟨hfails.mpr (by decide), ?_⟩,
    ⟨hfails'.mpr (by decide), ?_⟩⟩
  · obtain ⟨fault, hfault⟩ := hscalarFails
    exact (hscalar .bytes octets).2 fault hfault
  · obtain ⟨fault, hfault⟩ := harrayFails
    exact (harray [bulky 65534]).2 fault hfault
  · obtain ⟨fault, hfault⟩ := hfails.mpr (by decide)
    exact (hleft fault hfault).2
  · obtain ⟨fault, hfault⟩ := hfails'.mpr (by decide)
    exact (hleft' fault hfault).2

end Bulky

end SatWire
