import Mathlib.Data.List.Forall2
import Mathlib.Data.List.Infix
import RainEngine.Texts.Delimiters

/-
  This file is about the forms that the bodies of requests are
  taken apart to. How multer reads a body is a parameter; of
  what it reads it is known that any list of fields can be
  written as a body, if their files have names that multer
  reads. A reader of bodies is given of which this holds: it
  cuts a body at its boundary, and looks the head of each part
  up in a table.

  Key definitions include:
    * `FormField`
    * `Form`
    * `Multer`
    * `HeadTable`
    * `HeadTable.form`
    * `HeadTable.body`

  Key theorems include:
    * `HeadTable.parts_flatMap`
    * `HeadTable.multer`
-/

namespace RainEngine.Runtime

open Texts (cut cut_append)

------------------------------------------------------------
-- Forms
------------------------------------------------------------

/-
  A field of a form. Its content type is a media type that has
  been parsed, and its bytes may fail to arrive.
-/
structure FormField (Mime : Type) where
  name : Option String := none
  fileName : Option String := none
  contentType : Option Mime := none
  bytes : Except String (List UInt8)

/- The fields of a form, and the error that ends it, if any. -/
structure Form (Mime : Type) where
  fields : List (FormField Mime)
  broken : Option String := none

/- The names of fields that are looked for, and of files. -/
def fieldNames : List String :=
  ["session_id", "payload", "granted_scope", "granted_scopes",
    "idempotency_key", "provider", "policy_override",
    "attachment"]

/- A field that arrives, with a name that is looked for. -/
structure FormField.Plain
    {Mime : Type}
    (named : String → Prop)
    (field : FormField Mime) : Prop where
  name : ∃ name ∈ fieldNames, field.name = some name
  fileName : ∀ fileName ∈ field.fileName, named fileName
  arrives : ∃ data, field.bytes = .ok data

/-
  What is known of multer: the files of a body have names that
  it reads, and a body can be written for any list of fields
  that have such names.
-/
structure Multer
    {Mime : Type}
    (boundary : String → Except String String)
    (form : String → List UInt8 → Form Mime)
    (named : String → Prop) : Prop where
  reads :
    ∀ separator body,
      ∀ field ∈ (form separator body).fields,
        ∀ fileName ∈ field.fileName, named fileName
  writes :
    ∀ fields : List (FormField Mime),
      (∀ field ∈ fields, field.Plain named) →
        ∃ contentType separator body,
          boundary contentType = .ok separator ∧
            form separator body = { fields := fields }

------------------------------------------------------------
-- Bodies
------------------------------------------------------------

/- What the head of a part says about its field. -/
structure FormHead (Mime : Type) where
  name : Option String := none
  fileName : Option String := none
  contentType : Option Mime := none
deriving DecidableEq

/- The heads of parts, and the bytes that they are written as. -/
abbrev HeadTable (Mime : Type) :=
  List (FormHead Mime × List UInt8)

/- The bytes of a text that is plain. -/
def plainBytes (text : String) : List UInt8 :=
  text.toList.map fun c => UInt8.ofNat c.toNat

/- What a part begins with. -/
def FormHead.bytes
    {Mime : Type}
    (mimeText : Mime → String)
    (head : FormHead Mime) :
    List UInt8 :=
  plainBytes "\r\nContent-Disposition: form-data" ++
    (head.name.toList.flatMap fun name =>
      plainBytes ("; name=\"" ++ name ++ "\"")) ++
    (head.fileName.toList.flatMap fun fileName =>
      plainBytes ("; filename=\"" ++ fileName ++ "\"")) ++
    (head.contentType.toList.flatMap fun mime =>
      plainBytes ("\r\nContent-Type: " ++ mimeText mime)) ++
    plainBytes "\r\n\r\n"

def FormHead.field
    {Mime : Type}
    (head : FormHead Mime)
    (data : List UInt8) :
    FormField Mime where
  name := head.name
  fileName := head.fileName
  contentType := head.contentType
  bytes := .ok data

/- The bytes that a body begins with. -/
def opening (separator : String) : List UInt8 :=
  45 :: 45 :: plainBytes separator

/- The bytes between two parts: a line break, and the same. -/
def delimiter (separator : String) : List UInt8 :=
  13 :: 10 :: opening separator

/- The separator that a content type names. -/
def boundaryOf (contentType : String) : Except String String :=
  if "multipart/form-data; boundary=".toList <+:
      contentType.toList then
    .ok
      (String.ofList
        (contentType.toList.drop
          "multipart/form-data; boundary=".toList.length))
  else .error "multipart boundary not found"

namespace HeadTable

variable {Mime : Type}

/- A part is read by the head that it begins with. -/
def part
    (heads : HeadTable Mime)
    (bytes : List UInt8) :
    Option (FormField Mime) :=
  (heads.find? fun head => head.2 <+: bytes).map fun head =>
    head.1.field (bytes.drop head.2.length)

/- The parts behind a delimiter, for as long as there are any. -/
def parts
    (heads : HeadTable Mime)
    (separator : String) :
    Nat → List UInt8 → Form Mime
| 0, _ => { fields := [], broken := some "incomplete stream" }
| fuel + 1, bytes =>
    if [45, 45] <+: bytes then { fields := [] }
    else
      match cut (delimiter separator) bytes with
      | none =>
          { fields := [], broken := some "incomplete stream" }
      | some (first, rest) =>
          match heads.part first with
          | none =>
              { fields := [], broken := some "invalid header" }
          | some field =>
              { parts heads separator fuel rest with
                fields :=
                  field ::
                    (parts heads separator fuel rest).fields }

/- The form that a body is read to. -/
def form
    (heads : HeadTable Mime)
    (separator : String)
    (body : List UInt8) :
    Form Mime :=
  if opening separator <+: body then
    heads.parts separator body.length
      (body.drop (opening separator).length)
  else { fields := [], broken := some "incomplete stream" }

/-
  Heads of which none begins another one, with a line break
  first, for all fields that have names of files as these.
-/
structure Lawful
    (heads : HeadTable Mime)
    (named : String → Prop) : Prop where
  apart :
    ∀ first ∈ heads, ∀ second ∈ heads,
      first.2 <+: second.2 → first = second
  begins : ∀ head ∈ heads, head.2.head? = some 13
  files :
    ∀ head ∈ heads, ∀ fileName ∈ head.1.fileName,
      named fileName
  complete :
    ∀ field : FormField Mime, field.Plain named →
      ∃ head ∈ heads, ∃ data, head.1.field data = field

/- The body of some parts. -/
def body
    (separator : String)
    (parts : List (List UInt8)) :
    List UInt8 :=
  opening separator ++
    ((parts.flatMap fun part => part ++ delimiter separator) ++
      [45, 45])

variable {heads : HeadTable Mime}
variable {named : String → Prop}
variable {separator : String}
variable {head : FormHead Mime × List UInt8}
variable {field : FormField Mime}
variable {fields : List (FormField Mime)}
variable {written : List (List UInt8)}

/- A part is read by the head that it was written with. -/
theorem Lawful.part_append
    (hLawful : heads.Lawful named)
    (hHead : head ∈ heads)
    (data : List UInt8) :
    heads.part (head.2 ++ data) = some (head.1.field data) := by
  unfold part
  cases hFind : heads.find? fun other =>
      other.2 <+: head.2 ++ data with
  | none =>
      have hNone := List.find?_eq_none.mp hFind head hHead
      simp at hNone
  | some other =>
      have hOther := List.mem_of_find?_eq_some hFind
      have hPrefix : other.2 <+: head.2 ++ data := by
        simpa using List.find?_some hFind
      have hSame : other = head := by
        rcases List.prefix_or_prefix_of_prefix hPrefix
            (List.prefix_append head.2 data) with hLeft | hRight
        · exact hLawful.apart other hOther head hHead hLeft
        · exact (hLawful.apart head hHead other hOther
            hRight).symm
      rw [hSame]
      simp

/- The parts of a body are read one after the other. -/
theorem parts_flatMap
    (hMark : 13 ∉ 10 :: opening separator)
    (hWritten :
      List.Forall₂
        (fun bytes field =>
          bytes.length ≤ (10 :: opening separator).length ∧
            heads.part bytes = some field ∧
              bytes.head? = some 13)
        written fields)
    {fuel : Nat}
    (hFuel : written.length < fuel) :
    heads.parts separator fuel
        ((written.flatMap fun part =>
            part ++ delimiter separator) ++ [45, 45]) =
      { fields := fields } := by
  induction hWritten generalizing fuel with
  | nil =>
      cases fuel with
      | zero => cases hFuel
      | succ fuel => rfl
  | @cons bytes field written fields hPart _ ih =>
      cases fuel with
      | zero => cases hFuel
      | succ fuel =>
          rcases hPart with ⟨hShort, hRead, hBegins⟩
          rw [List.length_cons] at hFuel
          have hMore : ¬[45, 45] <+:
              bytes ++ (delimiter separator ++
                (written.flatMap (fun part =>
                  part ++ delimiter separator) ++
                    [45, 45])) := by
            cases bytes with
            | nil => cases hBegins
            | cons first rest =>
                cases hBegins
                rintro ⟨more, hSame⟩
                cases hSame
          rw [List.flatMap_cons, List.append_assoc,
            List.append_assoc]
          unfold parts
          rw [if_neg hMore]
          unfold delimiter
          rw [cut_append hMark hShort]
          dsimp only
          rw [hRead]
          dsimp only
          have hRest := @ih fuel (by omega)
          unfold delimiter at hRest
          rw [hRest]

/- Every field is read from some part. -/
theorem Lawful.exists_part
    (hLawful : heads.Lawful named)
    (hPlain : field.Plain named) :
    ∃ bytes : List UInt8,
      heads.part bytes = some field ∧
        bytes.head? = some 13 := by
  rcases hLawful.complete field hPlain with
    ⟨head, hHead, data, hField⟩
  refine ⟨head.2 ++ data, ?_, ?_⟩
  · rw [hLawful.part_append hHead, hField]
  · have hBegins := hLawful.begins head hHead
    rw [List.head?_append, hBegins]
    rfl

theorem Lawful.exists_parts
    (hLawful : heads.Lawful named)
    (hPlain : ∀ field ∈ fields, field.Plain named) :
    ∃ written : List (List UInt8),
      List.Forall₂
        (fun bytes field =>
          heads.part bytes = some field ∧
            bytes.head? = some 13)
        written fields := by
  induction fields with
  | nil => exact ⟨[], .nil⟩
  | cons field fields ih =>
      rw [List.forall_mem_cons] at hPlain
      rcases hLawful.exists_part hPlain.1 with ⟨bytes, hBytes⟩
      rcases ih hPlain.2 with ⟨written, hWritten⟩
      exact ⟨bytes :: written, .cons hBytes hWritten⟩

/- Bytes of a field that has been read have been read. -/
theorem mem_parts
    {fuel : Nat}
    {bytes : List UInt8}
    (hField : field ∈ (heads.parts separator fuel bytes).fields) :
    ∃ head ∈ heads, ∃ data, head.1.field data = field := by
  induction fuel generalizing bytes with
  | zero => cases hField
  | succ fuel ih =>
      unfold parts at hField
      split at hField
      · cases hField
      · split at hField
        · cases hField
        · split at hField
          · cases hField
          · rename_i first hRead
            rcases List.mem_cons.mp hField with hFirst | hRest
            · subst hFirst
              unfold part at hRead
              rcases Option.map_eq_some_iff.mp hRead with
                ⟨head, hFind, hHead⟩
              exact
                ⟨head, List.mem_of_find?_eq_some hFind, _,
                  hHead⟩
            · exact ih hRest

/- A separator of one letter that comes as often as is needed. -/
def longSeparator (length : Nat) : String :=
  String.ofList (List.replicate length 'b')

theorem mark_longSeparator (length : Nat) :
    13 ∉ 10 :: opening (longSeparator length) := by
  unfold opening plainBytes longSeparator
  simp

theorem length_longSeparator (length : Nat) :
    (10 :: opening (longSeparator length)).length =
      length + 3 := by
  unfold opening plainBytes longSeparator
  simp

theorem boundaryOf_append (separator : String) :
    boundaryOf
        ("multipart/form-data; boundary=" ++ separator) =
      .ok separator := by
  unfold boundaryOf
  simp

theorem length_le_flatMap
    (separator : String)
    (written : List (List UInt8)) :
    written.length ≤
      (written.flatMap fun part =>
        part ++ delimiter separator).length := by
  induction written with
  | nil => exact Nat.zero_le _
  | cons part rest ih =>
      rw [List.flatMap_cons, List.length_append,
        List.length_append, List.length_cons]
      change rest.length + 1 ≤ part.length + (_ + 1) + _
      omega

/- A body of short parts is read to the fields of its parts. -/
theorem form_body
    (hMark : 13 ∉ 10 :: opening separator)
    (hWritten :
      List.Forall₂
        (fun bytes field =>
          bytes.length ≤ (10 :: opening separator).length ∧
            heads.part bytes = some field ∧
              bytes.head? = some 13)
        written fields) :
    heads.form separator (body separator written) =
      { fields := fields } := by
  unfold form body
  rw [if_pos (List.prefix_append _ _), List.drop_left]
  apply parts_flatMap hMark hWritten
  have hParts := length_le_flatMap separator written
  rw [List.length_append, List.length_append]
  change written.length <
    (opening separator).length + (_ + 2)
  omega

/-
  What is known of multer holds of the reader that looks heads
  up in a lawful table.
-/
theorem Lawful.multer
    (hLawful : heads.Lawful named) :
    Multer boundaryOf heads.form named where
  reads := by
    intro separator body field hField fileName hName
    unfold form at hField
    split at hField
    · rcases mem_parts hField with ⟨head, hHead, data, rfl⟩
      exact hLawful.files head hHead fileName hName
    · cases hField
  writes := by
    intro fields hPlain
    rcases hLawful.exists_parts hPlain with ⟨written, hWritten⟩
    -- the separator is longer than all parts together
    let separator := longSeparator written.flatten.length
    refine
      ⟨"multipart/form-data; boundary=" ++ separator, separator,
        body separator written, boundaryOf_append separator,
        form_body (mark_longSeparator _) ?_⟩
    rw [List.forall₂_and_left]
    refine ⟨?_, hWritten⟩
    intro bytes hBytes
    have hLength :=
      (List.sublist_flatten_of_mem hBytes).length_le
    rw [length_longSeparator]
    omega

end HeadTable

end RainEngine.Runtime
