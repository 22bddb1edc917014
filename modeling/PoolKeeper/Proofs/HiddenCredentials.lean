import PoolKeeper.Tools.Engine

/-!
# `PoolKeeper/Proofs/HiddenCredentials.lean` — what a described command line tells of credentials

A command line is described word by word, and whether a word is hidden depends on the word before it. So
whatever stands before a secret can take the redaction off it, but only by what it leaves behind:
`hidesNext` says of the words so far whether the next one is hidden, and all that a description says of the
rest depends on that alone (`redact_append`).

The command line that makes a repository or connects to one names the place, then gives the credentials, then
says how to get there. Each of the three secrets follows its flag. What comes before the first flag ends in
the endpoint, and that is free text.
-/

set_option autoImplicit false

namespace PoolKeeper

open Text

namespace Invocation

/-! ## Redaction -/

/-- Whether the word after these is hidden. -/
def hidesNext (hide : Bool) : List String → Bool
  | [] => hide
  | a :: as => hidesNext (!hide && secretFlags.contains (shown a)) as

theorem redact_append (as bs : List String) (hide : Bool) :
    redact hide (as ++ bs) = redact hide as ++ redact (hidesNext hide as) bs := by
  induction as generalizing hide with
  | nil => rfl
  | cons a as ih =>
    cases hide with
    | true =>
      simp only [List.cons_append, redact, if_true, hidesNext, Bool.not_true, Bool.false_and]
      rw [ih]
    | false =>
      simp only [List.cons_append, redact, Bool.false_eq_true, if_false, hidesNext, Bool.not_false,
        Bool.true_and]
      rw [ih]

theorem hidesNext_append (as bs : List String) (hide : Bool) :
    hidesNext hide (as ++ bs) = hidesNext (hidesNext hide as) bs := by
  induction as generalizing hide with
  | nil => rfl
  | cons a as ih => exact ih _

/-- A word that cannot be shown is not taken for a flag. -/
theorem shown_mem_secretFlags {word : String} : shown word ∈ secretFlags ↔ word ∈ secretFlags := by
  unfold shown
  split
  · next hnul =>
    apply iff_of_false
    · decide
    · intro hflag
      simp only [secretFlags, List.mem_cons, List.not_mem_nil, or_false] at hflag
      rcases hflag with rfl | rfl | rfl <;> revert hnul <;> decide
  · rfl

/-- Whatever was before it, a word that is no flag for a secret hides nothing. -/
theorem hidesNext_quiet {word : String} (h : word ∉ secretFlags) (hide : Bool) :
    hidesNext hide [word] = false := by
  have hquiet : secretFlags.contains (shown word) = false := by
    simpa [shown_mem_secretFlags] using h
  rw [hidesNext, hquiet, Bool.and_false]
  rfl

end Invocation

/-! ## The command line of a repository -/

open Invocation

/-- What only the owner of a repository knows. -/
structure Credentials where
  accessKey : String
  secretKey : String
  password : String

/-- Nothing of it is blank. -/
structure Credentials.Complete (c : Credentials) : Prop where
  accessKey : trim c.accessKey ≠ ""
  secretKey : trim c.secretKey ≠ ""
  password : trim c.password ≠ ""

/-- The credentials, each after its flag. -/
def Credentials.arguments (c : Credentials) : List String :=
  ["--access-key", c.accessKey, "--secret-access-key", c.secretKey, "--password", c.password]

namespace ObjectStore

variable (s : ObjectStore) (program verb : String) (cache : Option String)

/-- What is to be done, and with which store. -/
def placeArguments : List String :=
  ["repository", verb, "s3", "--bucket", s.bucket, "--endpoint", s.endpoint]

/-- How the store is reached. -/
def routeArguments : List String :=
  (if s.disableTls then ["--disable-tls"] else []) ++ match s.region with
    | some region => if region = "" then [] else ["--region", region]
    | none => []

/-- The command line for the store with other credentials. -/
def commandLine (c : Credentials) : Invocation where
  program := program
  arguments := Engine.repositoryArguments verb
    { s with accessKey := c.accessKey, secretKey := c.secretKey } c.password
  cache := cache

theorem commandLine_arguments (c : Credentials) : (s.commandLine program verb cache c).arguments =
    s.placeArguments verb ++ (c.arguments ++ s.routeArguments) := rfl

/-- Only the endpoint matters: its flag leaves nothing hidden, whatever came before. -/
theorem hidesNext_placeArguments :
    hidesNext false (s.placeArguments verb) = decide (s.endpoint ∈ secretFlags) := by
  have hplace : s.placeArguments verb =
      ["repository", verb, "s3", "--bucket", s.bucket] ++ (["--endpoint"] ++ [s.endpoint]) := rfl
  have hquiet : "--endpoint" ∉ secretFlags := by decide
  rw [hplace, hidesNext_append, hidesNext_append, hidesNext_quiet hquiet]
  simp [hidesNext, shown_mem_secretFlags]

/-- The description, with what the place and the credentials come to. -/
theorem describe_commandLine (c : Credentials) : (s.commandLine program verb cache c).describe =
    String.intercalate " " (shown program :: redact false (s.placeArguments verb) ++
      (redact (decide (s.endpoint ∈ secretFlags)) c.arguments ++
        redact (hidesNext (decide (s.endpoint ∈ secretFlags)) c.arguments) s.routeArguments)) := by
  rw [describe, commandLine_arguments, redact_append, redact_append, hidesNext_placeArguments]
  rfl

end ObjectStore

namespace Credentials

/-- After a word that is no flag, each of the three secrets is hidden and nothing after them. -/
theorem redact_arguments (c : Credentials) : redact false c.arguments =
    ["--access-key", "***", "--secret-access-key", "***", "--password", "***"] := rfl

theorem hidesNext_arguments (c : Credentials) : hidesNext false c.arguments = false := rfl

/-- After a flag, what is hidden is the flag of the access key. -/
theorem redact_arguments_shifted (c : Credentials) : redact true c.arguments =
    "***" :: shown c.accessKey :: redact (secretFlags.contains (shown c.accessKey))
      ["--secret-access-key", c.secretKey, "--password", c.password] := rfl

end Credentials

/-! ## Words in a text -/

theorem Text.intercalate_cons_of_ne_nil {separator word : String} {words : List String}
    (h : words ≠ []) :
    separator.intercalate (word :: words) = word ++ separator ++ separator.intercalate words := by
  cases words with
  | nil => exact absurd rfl h
  | cons next words => exact String.intercalate_cons_cons

/-- Two texts that are the same up to one word differ if that word does. -/
theorem Text.intercalate_word_inj {separator word word' : String} {after : List String}
    (before : List String)
    (h : separator.intercalate (before ++ word :: after) =
      separator.intercalate (before ++ word' :: after)) : word = word' := by
  induction before with
  | nil =>
    cases after with
    | nil => simpa using h
    | cons next after =>
      rw [List.nil_append, List.nil_append, String.intercalate_cons_cons, String.intercalate_cons_cons] at h
      simpa using h
  | cons first before ih =>
    apply ih
    rw [List.cons_append, List.cons_append, intercalate_cons_of_ne_nil (by simp),
      intercalate_cons_of_ne_nil (by simp)] at h
    exact (String.append_right_inj _).mp h

/-! ## What can be told apart -/

/-- Whoever reads the described command line learns nothing of the credentials, exactly if the endpoint is
not itself a flag for a secret. Nothing else that the configuration says of the store matters, nor which
program is run, nor for what. -/
theorem ObjectStore.described_alike_iff (s : ObjectStore) (program verb : String) (cache : Option String) :
    (∀ c c' : Credentials, c.Complete → c'.Complete →
      (s.commandLine program verb cache c).describe = (s.commandLine program verb cache c').describe) ↔
    s.endpoint ∉ secretFlags := by
  constructor
  · intro halike hflag
    have h := halike ⟨"a", "s", "p"⟩ ⟨"b", "s", "p"⟩ (by constructor <;> decide)
      (by constructor <;> decide)
    rw [describe_commandLine, describe_commandLine, decide_eq_true hflag,
      Credentials.redact_arguments_shifted, Credentials.redact_arguments_shifted] at h
    -- The access keys are the only words that differ.
    have hkeys : "a" = "b" := by
      apply intercalate_word_inj (shown program :: redact false (s.placeArguments verb) ++ ["***"])
      rw [List.append_assoc, List.append_assoc]
      exact h
    exact absurd hkeys (by decide)
  · intro hquiet c c' _ _
    rw [describe_commandLine, describe_commandLine, decide_eq_false hquiet]
    simp only [Credentials.redact_arguments, Credentials.hidesNext_arguments]

/-- A store like any other. -/
def ordinaryStore : ObjectStore :=
  { endpoint := "store", bucket := "--password", accessKey := "key", secretKey := "hush",
    region := some "eu" }

/-- A bucket with the name of a flag takes nothing off the secrets. -/
theorem ordinaryStore_described_alike : "store" ∉ secretFlags ∧
    ∀ c c' : Credentials, c.Complete → c'.Complete →
      (ordinaryStore.commandLine "kopia" "connect" none c).describe =
        (ordinaryStore.commandLine "kopia" "connect" none c').describe := by
  have hquiet : "store" ∉ secretFlags := by decide
  exact ⟨hquiet, (ordinaryStore.described_alike_iff "kopia" "connect" none).mpr hquiet⟩

/-- A backend whose endpoint is written as a flag for a secret. -/
def flaggedBackend : Backend where
  kind := "s3"
  s3 := some { endpoint := "--password", bucket := "b", accessKey := "AKIA", secretKey := "shh" }

/-- It is accepted, and its access key is shown. -/
theorem flaggedBackend_shows_key : ∃ s, flaggedBackend.resolve = .ok (.s3 s) ∧
    Credentials.Complete ⟨s.accessKey, s.secretKey, "hunter2"⟩ ∧
    Credentials.Complete ⟨"other", s.secretKey, "hunter2"⟩ ∧
    (s.commandLine "kopia" "connect" none ⟨s.accessKey, s.secretKey, "hunter2"⟩).describe =
      "kopia repository connect s3 --bucket b --endpoint --password *** AKIA --secret-access-key *** " ++
        "--password ***" ∧
    (s.commandLine "kopia" "connect" none ⟨"other", s.secretKey, "hunter2"⟩).describe ≠
      (s.commandLine "kopia" "connect" none ⟨s.accessKey, s.secretKey, "hunter2"⟩).describe := by
  refine ⟨_, rfl, ?_, ?_, ?_, ?_⟩
  · constructor <;> decide
  · constructor <;> decide
  · decide +kernel
  · decide +kernel

end PoolKeeper
