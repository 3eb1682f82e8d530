import Diagnosis.Analysis

/-!
# Many texts

Texts are analysed independently of each other, and the results come in the order of the texts. A
caller that wants to follow the progress is told the position of each text when its analysis is
done.

Texts may also come from files, of which here only the contents matter: a store holds the bytes of
each file, and the file written last under a name counts.
-/

namespace Diagnosis

/-- Analyses texts and calls back with the position of each when it is done. -/
def Config.analyzeEach {m : Type → Type} [Monad m] (config : Config) (done : Nat → m Unit) :
    Nat → List String → m (List (Option Analysis))
  | _, [] => pure []
  | i, text :: rest => do
    let result := config.analyze text
    done i
    let results ← config.analyzeEach done (i + 1) rest
    pure (result :: results)

/-- Analyses texts. -/
def Config.analyzeAll (config : Config) (texts : List String) : List (Option Analysis) :=
  texts.map config.analyze

/-- A caller that does nothing when it is called back gets the analyses of the texts. -/
theorem Config.analyzeEach_pure (config : Config) (i : Nat) (texts : List String) :
    Id.run (config.analyzeEach (fun _ => pure ()) i texts) = config.analyzeAll texts := by
  induction texts generalizing i with
  | nil => rfl
  | cons text rest ih => exact congrArg (config.analyze text :: ·) (ih (i + 1))

/-! ## Files -/

/-- The contents of files. -/
structure FileStore where
  /-- The files with their names, the one written last first. -/
  files : List (String × ByteArray) := []

namespace FileStore

/-- The store after a file is written. -/
def write (store : FileStore) (name : String) (content : ByteArray) : FileStore :=
  ⟨(name, content) :: store.files⟩

/-- The text of a file. -/
def readText (store : FileStore) (name : String) : Except Failure String :=
  match store.files.lookup name with
  | none => .error .fileNotFound
  | some content =>
    match String.fromUTF8? content with
    | some text => .ok text
    | none => .error .invalidEncoding

/-- The file written last under a name is the one that is read. -/
theorem readText_write_self (store : FileStore) (name text : String) :
    (store.write name text.toUTF8).readText name = .ok text := by
  simp [readText, write, String.fromUTF8?, String.fromUTF8, text.isValidUTF8]

end FileStore

/-- Analyses the text of a file. -/
def Config.analyzeFile (config : Config) (store : FileStore) (name : String) :
    Except Failure Analysis :=
  match store.readText name with
  | .error failure => .error failure
  | .ok text =>
    match config.analyze text with
    | some analysis => .ok analysis
    | none => .error (.emptyInput name)

/-- Analyses the texts of files. The failure of one does not touch the others. -/
def Config.analyzeFiles (config : Config) (store : FileStore) (names : List String) :
    List (Except Failure Analysis) :=
  names.map (config.analyzeFile store)

end Diagnosis
