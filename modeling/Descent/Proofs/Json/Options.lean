import Descent.Json.Arguments

/-!
The option that asks for a trace.  It stands for itself in front of any arguments, and nothing but
the option asks for a trace.
-/

set_option autoImplicit false
set_option relaxedAutoImplicit false

namespace Descent.Json

/-- The progress with another trace setting. -/
def Progress.withTrace (p : Progress) (traced : Bool) : Progress :=
  { p with traced := traced }

/-- The arguments with another trace setting, if they are accepted. -/
def Reception.withTrace (r : Reception) (traced : Bool) : Reception :=
  match r with
  | .go a => .go { a with traced := traced }
  | r => r

/-- What is attached to the short spelling of the help option never lets the command go on. -/
theorem shortHelp_ne_go (attached : Text) (a : Arguments) : shortHelp attached ≠ .go a := by
  induction attached with
  | nil => exact nofun
  | cons c rest ih =>
    rw [shortHelp]
    split
    · exact nofun
    · split
      · exact nofun
      · split
        · exact ih
        · exact nofun

namespace Progress

theorem takePath_withTrace (p : Progress) (traced : Bool) (t : Text) :
    (p.withTrace traced).takePath t = (p.takePath t).withTrace traced := by
  rcases p with ⟨_ | path, _, extra⟩ <;> rfl

theorem finish_withTrace (p : Progress) (traced : Bool) :
    (p.withTrace traced).finish = p.finish.withTrace traced := by
  rcases p with ⟨path, _, _ | ⟨t, extra⟩⟩ <;> rfl

theorem foldl_takePath_withTrace (p : Progress) (traced : Bool) (rest : List Text) :
    rest.foldl takePath (p.withTrace traced) = (rest.foldl takePath p).withTrace traced := by
  induction rest generalizing p with
  | nil => rfl
  | cons t rest ih => rw [List.foldl_cons, List.foldl_cons, takePath_withTrace, ih]

theorem takeRest_withTrace (p : Progress) (traced : Bool) (afterPath : Bool) (rest : List Text) :
    (p.withTrace traced).takeRest afterPath rest =
      (p.takeRest afterPath rest).withTrace traced := by
  rcases p with ⟨_ | path, before, extra⟩
  · cases rest with
    | nil => rfl
    | cons t rest => exact foldl_takePath_withTrace _ traced (t :: rest)
  · cases afterPath with
    | false => exact foldl_takePath_withTrace ⟨some path, before, _ :: extra⟩ traced rest
    | true => exact foldl_takePath_withTrace ⟨some path, before, extra⟩ traced rest

theorem traced_takePath (p : Progress) (t : Text) : (p.takePath t).traced = p.traced := by
  have hself : p.takePath t = (p.takePath t).withTrace p.traced := p.takePath_withTrace p.traced t
  rw [hself]
  rfl

theorem traced_takeRest (p : Progress) (afterPath : Bool) (rest : List Text) :
    (p.takeRest afterPath rest).traced = p.traced := by
  have hself : p.takeRest afterPath rest = (p.takeRest afterPath rest).withTrace p.traced :=
    p.takeRest_withTrace p.traced afterPath rest
  rw [hself]
  rfl

theorem take_withTrace (p : Progress) (afterPath : Bool) (words : List Word) :
    (p.withTrace true).take afterPath words =
      (p.take afterPath words).map fun (q, after) => (q.withTrace true, after) := by
  -- The option gives both sides the same setting, and no other word touches it.
  induction words generalizing p afterPath with
  | nil => rfl
  | cons word words ih =>
    cases word with
    | path t =>
      show ((p.withTrace true).takePath t).take p.path.isNone words = _
      rw [takePath_withTrace, ih]
      rfl
    | unknown t => exact ih { p with extra := t :: p.extra } false
    | long f attached =>
      cases attached with
      | some value => cases f <;> rfl
      | none =>
        cases f with
        | help => rfl
        | debug => exact ih (p.withTrace true) false
    | short attached => rfl

/-- An argument that ends the reading does not let the command go on. -/
theorem ne_go_of_take {p : Progress} {afterPath : Bool} {words : List Word} {r : Reception}
    (h : p.take afterPath words = .error r) (a : Arguments) : r ≠ .go a := by
  induction words generalizing p afterPath with
  | nil => cases h
  | cons word words ih =>
    cases word with
    | path t => exact ih h
    | unknown t => exact ih h
    | long f attached =>
      cases attached with
      | some value => cases f <;> cases h <;> exact nofun
      | none =>
        cases f with
        | help => cases h; exact nofun
        | debug => exact ih h
    | short attached =>
      cases h
      exact shortHelp_ne_go attached a

theorem traced_take {p q : Progress} {afterPath after : Bool} {words : List Word}
    (h : p.take afterPath words = .ok (q, after)) :
    q.traced = true ↔ p.traced = true ∨ .long .debug none ∈ words := by
  induction words generalizing p afterPath with
  | nil =>
    cases h
    simp
  | cons word words ih =>
    cases word with
    | path t => simpa [traced_takePath] using ih h
    | unknown t => simpa using ih h
    | long f attached =>
      cases attached with
      | some value => cases f <;> cases h
      | none =>
        cases f with
        | help => cases h
        | debug => simpa using ih h
    | short attached => cases h

theorem traced_of_finish {p : Progress} {a : Arguments} (h : p.finish = .go a) :
    a.traced = p.traced := by
  rw [finish] at h
  split at h
  · cases h
    rfl
  · cases h

end Progress

private theorem mem_of_mapM {arguments : List Text} {words : List Word}
    (h : arguments.mapM Word.ofText = .ok words) (word : Word) :
    word ∈ words ↔ ∃ t ∈ arguments, Word.ofText t = .ok word := by
  induction arguments generalizing words with
  | nil =>
    cases h
    simp
  | cons t arguments ih =>
    rw [List.mapM_cons] at h
    cases hfirst : Word.ofText t with
    | error e => rw [hfirst] at h; cases h
    | ok first =>
      cases hrest : arguments.mapM Word.ofText with
      | error e => rw [hfirst, hrest] at h; cases h
      | ok rest =>
        rw [hfirst, hrest] at h
        cases h
        simp [ih hrest, hfirst, eq_comm]

namespace Reception

/-- What comes of the words in front of the two minus signs that end the options, and of the
arguments from these signs on. -/
def ofWords (words : List Word) (behind : List Text) : Reception :=
  match Progress.take {} false words with
  | .error r => r
  | .ok (p, afterPath) =>
    match behind with
    | [] => p.finish
    | _ :: rest => (p.takeRest afterPath rest).finish

theorem ofArguments_eq (arguments : List Text) :
    ofArguments arguments =
      match (arguments.takeWhile (· != Text.ofString "--")).mapM Word.ofText with
      | .error e => .refuse e
      | .ok words => ofWords words (arguments.dropWhile (· != Text.ofString "--")) := rfl

theorem ofWords_debug (words : List Word) (behind : List Text) :
    ofWords (.long .debug none :: words) behind = (ofWords words behind).withTrace true := by
  have htake : Progress.take {} false (.long .debug none :: words) =
      (Progress.take {} false words).map fun (q, after) => (q.withTrace true, after) :=
    Progress.take_withTrace {} false words
  rw [ofWords, ofWords, htake]
  cases htaken : Progress.take {} false words with
  | error r =>
    cases r with
    | go a => exact absurd rfl (Progress.ne_go_of_take htaken a)
    | help | refuse e => rfl
  | ok progress =>
    obtain ⟨q, after⟩ := progress
    cases behind with
    | nil => exact q.finish_withTrace true
    | cons stop rest =>
      show ((q.withTrace true).takeRest after rest).finish = _
      rw [Progress.takeRest_withTrace, Progress.finish_withTrace]

theorem traced_of_ofWords {words : List Word} {behind : List Text} {a : Arguments}
    (h : ofWords words behind = .go a) : a.traced = true ↔ .long .debug none ∈ words := by
  rw [ofWords] at h
  split at h
  · next htake => exact absurd h (Progress.ne_go_of_take htake a)
  · next p afterPath htake =>
    have htraced : p.traced = true ↔ .long .debug none ∈ words := by
      simpa using Progress.traced_take htake
    split at h
    · rw [Progress.traced_of_finish h, htraced]
    · rw [Progress.traced_of_finish h, Progress.traced_takeRest, htraced]

/-- The option in front of arguments asks for a trace and changes nothing else. -/
theorem ofArguments_debug (arguments : List Text) :
    ofArguments (Text.ofString "--debug" :: arguments) =
      (ofArguments arguments).withTrace true := by
  have hword : Word.ofText (Text.ofString "--debug") = .ok (.long .debug none) := rfl
  have hne : (Text.ofString "--debug" != Text.ofString "--") = true := by decide
  rw [ofArguments_eq, ofArguments_eq,
    List.takeWhile_cons_of_pos (p := (· != Text.ofString "--")) hne,
    List.dropWhile_cons_of_pos (p := (· != Text.ofString "--")) hne, List.mapM_cons, hword]
  cases (arguments.takeWhile (· != Text.ofString "--")).mapM Word.ofText with
  | error e => rfl
  | ok words => exact ofWords_debug words _

/-- Nothing but the option asks for a trace, in one of its spellings and in front of the two minus
signs that end the options. -/
theorem traced_iff {arguments : List Text} {a : Arguments} (h : ofArguments arguments = .go a) :
    a.traced = true ↔ ∃ t ∈ arguments.takeWhile (· != Text.ofString "--"),
      Word.ofText t = .ok (.long .debug none) := by
  rw [ofArguments_eq] at h
  split at h
  · cases h
  · next words hwords => rw [traced_of_ofWords h, mem_of_mapM hwords]

end Reception

end Descent.Json
