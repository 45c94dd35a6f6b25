import Courier.Settings.Error

/-!
# Settings from YAML

A settings file is a map with a version and a section about the server, of which every field may be
missing. The items of the document are read in order, so that of several errors the first in the
text counts. An alias is read as what its anchor names.
-/

namespace Courier

open Text Yaml
open Decimal (twoTo)

namespace SettingsReader

abbrev Step (α : Type) := Except ShapeError (α × Items)

/-- Gives a complaint the path and the mark of what is being read, if it has no place yet. -/
def place {α : Type} (path : List String) (m : Mark) : Step α → Step α
  | .error (.complaint c none) => .error (.complaint c (some (path, m)))
  | r => r

def complain {α : Type} (c : Complaint) : Step α := .error (.complaint c none)

def ended {α : Type} (d : Document) : Step α :=
  match d.fault with
  | some fault => .error (.broken fault)
  | none => .error .ended

/-! ## Scalars of the wrong kind -/

def knownTag (name : String) : Bytes := utf8 ("tag:yaml.org,2002:" ++ name)

def integer? (cs : List Char) : Option Int :=
  (Yaml.integer? cs).filter fun n => -(twoTo 127 : Int) ≤ n ∧ n < twoTo 128

def foundPlain (cs : List Char) : FoundItem :=
  if cs.isEmpty || isNull cs then .unit
  else match bool? cs, integer? cs with
    | some b, _ => .bool b
    | none, some n => .integer n
    | none, none =>
        match if isPaddedDigits cs then none else real? cs with
        | some x => .real x
        | none => .string (String.ofList cs)

/-- A complaint about a scalar, where `expected` was expected. A tag says what the scalar is meant
to be. -/
def wrongScalar (tag : Option Bytes) (cs : List Char) (style : Style) (expected : String) :
    Complaint :=
  let text := FoundItem.string (String.ofList cs)
  let asTyped := fun (found : Option FoundItem) (kind : String) =>
    match found with
    | some found => Complaint.wrongType found expected
    | none => .wrongValue text kind
  match tag with
  | none => .wrongType (if style = .plain then foundPlain cs else text) expected
  | some tag =>
      if tag = knownTag "bool" then asTyped ((bool? cs).map .bool) "a boolean"
      else if tag = knownTag "int" then asTyped ((integer? cs).map .integer) "an integer"
      else if tag = knownTag "float" then asTyped ((real? cs).map .real) "a float"
      else if tag = knownTag "null" then asTyped (if isNull cs then some .unit else none) "null"
      else if tag.head? = some 33 ∧ style = .plain then .wrongType (foundPlain cs) expected
      else .wrongType text expected

def wrongItem {α : Type} (expected : String) : Item → Step α
  | .scalar tag cs style => complain (wrongScalar tag cs style expected)
  | .listStart _ => complain (.wrongType .list expected)
  | .mapStart _ => complain (.wrongType .map expected)
  | _ => .error .ended

/-! ## Values -/

/-- Reads the next item, or what its anchor names if it is an alias. What is wrong with either is at
its place. -/
def readItem {α : Type} (d : Document) (path : List String) (items : Items)
    (read : Item → Mark → Items → Step α) : Step α :=
  match items with
  | [] => ended d
  | (.aliasOf anchor, m) :: rest =>
      place path m <| match d.target anchor with
        | [] => ended d
        | (item, m) :: inner =>
            match place path m (read item m inner) with
            | .error e => .error e
            | .ok (a, _) => .ok (a, rest)
  | (item, m) :: rest => place path m (read item m rest)

/-- Reads a natural number below a limit; `kind` is the name of such numbers. Those of 64 bits are
told from others before the limit is looked at. -/
def readNatural (d : Document) (kind : String) (limit : Nat) (path : List String) (items : Items) :
    Step Nat :=
  readItem d path items fun item _ rest =>
    match item with
    | .scalar tag cs style =>
        let isNumber := style == .plain || (style == .literal && tag == some (knownTag "int"))
        match (natural? cs).filter fun n => isNumber && n < twoTo 64 with
        | some n =>
            if n < limit then .ok (n, rest) else complain (.wrongValue (.integer n) kind)
        | none => wrongItem kind item
    | item => wrongItem kind item

def readText (d : Document) (kind : String) (path : List String) (items : Items) : Step String :=
  readItem d path items fun item _ rest =>
    match item with
    | .scalar _ cs _ => .ok (String.ofList cs, rest)
    | item => wrongItem kind item

def isAbsent (tag : Option Bytes) (cs : List Char) (style : Style) : Except Complaint Bool :=
  if style ≠ .plain then .ok false
  else match tag with
    | none => .ok (cs.isEmpty || isNull cs)
    | some tag =>
        if tag ≠ knownTag "null" then .ok false
        else if isNull cs then .ok true
        else .error (.wrongValue (.string (String.ofList cs)) "null")

def readTimeout (d : Document) (path : List String) (items : Items) : Step (Option Nat) :=
  let present := fun (items : Items) => (readNatural d "u64" (twoTo 64) path items).map
    fun (n, rest) => (some n, rest)
  let read := fun (items : Items) =>
    match items with
    | (.scalar tag cs style, _) :: rest =>
        match isAbsent tag cs style with
        | .error c => complain c
        | .ok true => .ok (none, rest)
        | .ok false => present items
    | items => present items
  match items with
  | (.aliasOf anchor, _) :: rest => (read (d.target anchor)).map fun (t, _) => (t, rest)
  | items => read items

def modeNames : List String := ["single_shot", "persistent"]

def modeOf (name : String) : Except Complaint SessionMode :=
  match name with
  | "single_shot" => .ok .singleShot
  | "persistent" => .ok .persistent
  | _ => .error (.unknownVariant name modeNames)

def variantOf? (tag : Option Bytes) : Option String :=
  match tag with
  | some (33 :: name) =>
      (Utf8.decode? (if name.isEmpty then [33] else name)).map String.ofList
  | _ => none

def readUnit (path : List String) (item : Item) (m : Mark) (rest : Items) : Step Unit :=
  place path m <| match item with
    | .scalar _ cs style =>
        if style = .plain ∧ (cs.isEmpty ∨ isNull cs) then .ok ((), rest)
        else complain (.wrongValue (.string (String.ofList cs)) "null")
    | item => wrongItem "unit" item

def readTaggedMode (path : List String) (name : String) (item : Item) (m : Mark) (rest : Items) :
    Step SessionMode :=
  match modeOf name with
  | .error c => complain c
  | .ok mode => (readUnit path item m rest).map fun (_, rest) => (mode, rest)

def tagKind : String := "a YAML tag starting with '!'"

def readPlainMode (path : List String) (item : Item) (m : Mark) (rest : Items) :
    Step SessionMode :=
  let tagged := fun (tag : Option Bytes) (otherwise : Step SessionMode) =>
    match variantOf? tag with
    | some name => readTaggedMode path name item m rest
    | none => place path m otherwise
  match item with
  | .scalar tag cs _ =>
      tagged tag <| match modeOf (String.ofList cs) with
        | .ok mode => .ok (mode, rest)
        | .error c => complain c
  | .listStart tag => tagged tag (complain (.wrongType .list tagKind))
  | .mapStart tag => tagged tag (complain (.wrongType .map tagKind))
  | _ => .error .ended

def readMode (d : Document) (path : List String) (items : Items) : Step SessionMode :=
  match items with
  | [] => ended d
  | (.aliasOf anchor, m) :: rest =>
      place path m <| match d.target anchor with
        | [] => ended d
        | (item, m) :: inner =>
            (readPlainMode path item m inner).map fun (mode, _) => (mode, rest)
  | (item, m) :: rest => readPlainMode path item m rest

/-! ## Maps -/

def readName {φ : Type} (d : Document) (fields : List (String × φ)) (path : List String)
    (items : Items) : Step φ :=
  let kind := "field identifier"
  readItem d path items fun item _ rest =>
    match item with
    | .scalar _ cs _ =>
        match fields.lookup (String.ofList cs) with
        | some field => .ok (field, rest)
        | none => complain (.unknownField (String.ofList cs) (fields.map (·.1)))
    | item => wrongItem kind item

/-- What the name of a field adds to the path: an alias is not looked up. -/
def pathPart : Item → String
  | .scalar _ cs _ => String.ofList cs
  | _ => "?"

/-- Reads the fields of a map up to its end; `readField` reads the value of a field, and is given
the path to it. -/
def readFields {φ σ : Type} (d : Document) (fields : List (String × φ)) (path : List String)
    (readField : φ → List String → σ → Items → Step σ) (s : σ) : Nat → Items → Step σ
  | 0, _ => .error .ended
  | fuel + 1, items =>
      match items with
      | [] => ended d
      | (.mapEnd, _) :: rest => .ok (s, rest)
      | (item, _) :: _ =>
          match readName d fields path items with
          | .error e => .error e
          | .ok (field, rest) =>
              match readField field (path ++ [pathPart item]) s rest with
              | .error e => .error e
              | .ok (s, rest) => readFields d fields path readField s fuel rest

def readMap {φ σ : Type} (d : Document) (kind : String) (fields : List (String × φ))
    (path : List String) (readField : φ → List String → σ → Items → Step σ)
    (finish : σ → Except Complaint σ) (s : σ) (items : Items) : Step σ :=
  let close := fun (s : σ) (rest : Items) =>
    match finish s with
    | .ok s => Except.ok (s, rest)
    | .error c => complain c
  readItem d path items fun item _ rest =>
    match item with
    | .mapStart _ =>
        match readFields d fields path readField s (rest.length + 1) rest with
        | .error e => .error e
        | .ok (s, rest) => close s rest
    | .nothing => close s rest
    | .scalar _ [] .plain => close s rest
    | item => wrongItem kind item

def readOnce {α σ : Type} (name : String) (old : Option α) (value : Step α) (put : α → σ) :
    Step σ :=
  if old.isSome then complain (.duplicateField name)
  else value.map fun (a, rest) => (put a, rest)

inductive SectionField where
  | socketPath
  | sessionMode
  | maxFrameBytes
  | socketMode
  | readTimeout
  | writeTimeout

def SectionField.name : SectionField → String
  | .socketPath => "socket_path"
  | .sessionMode => "session_mode"
  | .maxFrameBytes => "max_frame_bytes"
  | .socketMode => "socket_mode"
  | .readTimeout => Settings.readTimeoutName
  | .writeTimeout => Settings.writeTimeoutName

def SectionField.named : List (String × SectionField) :=
  [.socketPath, .sessionMode, .maxFrameBytes, .socketMode, .readTimeout, .writeTimeout].map
    fun field => (field.name, field)

structure SectionDraft where
  socketPath : Option String := none
  sessionMode : Option SessionMode := none
  maxFrameBytes : Option Nat := none
  socketMode : Option Nat := none
  readTimeout : Option (Option Nat) := none
  writeTimeout : Option (Option Nat) := none

def readSectionField (d : Document) (field : SectionField) (path : List String) (s : SectionDraft)
    (items : Items) : Step SectionDraft :=
  match field with
  | .socketPath => readOnce field.name s.socketPath (readText d "path string" path items)
      fun a => { s with socketPath := some a }
  | .sessionMode => readOnce field.name s.sessionMode (readMode d path items)
      fun a => { s with sessionMode := some a }
  | .maxFrameBytes =>
      readOnce field.name s.maxFrameBytes (readNatural d "usize" (twoTo 64) path items)
        fun a => { s with maxFrameBytes := some a }
  | .socketMode => readOnce field.name s.socketMode (readNatural d "u32" (twoTo 32) path items)
      fun a => { s with socketMode := some a }
  | .readTimeout => readOnce field.name s.readTimeout (readTimeout d path items)
      fun a => { s with readTimeout := some a }
  | .writeTimeout => readOnce field.name s.writeTimeout (readTimeout d path items)
      fun a => { s with writeTimeout := some a }

inductive FileField where
  | version
  | server

def FileField.name : FileField → String
  | .version => "version"
  | .server => "server"

def FileField.named : List (String × FileField) :=
  [.version, .server].map fun field => (field.name, field)

structure FileDraft where
  version : Option Nat := none
  server : Option SectionDraft := none

def readFileField (d : Document) (field : FileField) (path : List String) (s : FileDraft)
    (items : Items) : Step FileDraft :=
  match field with
  | .version => readOnce field.name s.version (readNatural d "u32" (twoTo 32) path items)
      fun a => { s with version := some a }
  | .server =>
      readOnce field.name s.server
        (readMap d "struct ServerSection" SectionField.named path (readSectionField d) .ok {} items)
        fun a => { s with server := some a }

/-- The settings of the fields read; what is missing is as by default. -/
def FileDraft.settings (s : FileDraft) : Settings :=
  let server := s.server.getD {}
  let base : Settings := {}
  { version := s.version.getD base.version
    socketPath := (server.socketPath.map utf8).getD base.socketPath
    sessionMode := server.sessionMode.getD base.sessionMode
    maxFrameBytes := server.maxFrameBytes.getD base.maxFrameBytes
    socketMode := server.socketMode.getD base.socketMode
    readTimeout := server.readTimeout.join
    writeTimeout := server.writeTimeout.join }

def FileDraft.finish (s : FileDraft) : Except Complaint FileDraft :=
  if s.version.isSome then .ok s else .error (.missingField FileField.version.name)

def readDocument (d : Document) : Except ShapeError Settings :=
  match readMap d "struct ServerConfig" FileField.named [] (readFileField d) FileDraft.finish {}
      d.items with
  | .error e => .error e
  | .ok (s, _) =>
      match d.fault with
      | some fault => .error (.broken fault)
      | none => if d.isFollowed then .error .severalDocuments else .ok s.settings

end SettingsReader

namespace Settings

def ofText (cs : List Char) : Except SettingsError Settings :=
  match SettingsReader.readDocument (Document.ofText cs) with
  | .error e => .error (.shape e)
  | .ok s =>
      match s.check with
      | .ok s => .ok s
      | .error flaw => .error (.flaw flaw)

def ofReading (path : String) : Except OsError Bytes → Except SettingsError Settings
  | .error e => .error (.unreadable path e)
  | .ok bs =>
      match Utf8.decode? bs with
      | none => .error (.notUtf8 path)
      | some cs => ofText cs

def ofFile (fs : Files) (path : String) : Except SettingsError Settings :=
  ofReading path (fs.read path)

end Settings

end Courier
