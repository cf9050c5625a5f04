import HelperHandoff.Config
import HelperHandoff.Proofs.Environment.Readings
import HelperHandoff.Proofs.Text.Numeral
import HelperHandoff.Proofs.Text.Utf8

/-!
What a process is configured with. The waiting time is a whole number of seconds, written with
blanks around it or not, or else the default; and of the environment two entries count, the first
for the home directory and the first for the waiting time.
-/

set_option autoImplicit false

namespace HelperHandoff.Config

open Bytes (slash)
open Environment (entryOf join)
open Text (Blanks Numeral trim natural?)

/-! ### The waiting time -/

/-- A text for `n` seconds. -/
def Asks (s : String) (n : Nat) : Prop :=
  ∃ left cs right, Blanks left ∧ Blanks right ∧ Numeral n cs ∧ s.toList = left ++ cs ++ right

theorem asks_iff {s : String} {n : Nat} : Asks s n ↔ Numeral n (trim s.toList) := by
  constructor
  · rintro ⟨left, cs, right, hl, hr, hn, hs⟩
    rwa [hs, Text.trim_padded hl hr, hn.trim_eq_self]
  · intro hn
    obtain ⟨left, right, hl, hr, hs⟩ := Text.exists_padded s.toList
    exact ⟨left, _, right, hl, hr, hn, hs.symm⟩

/-- The number of seconds that a text asks for, where there is a text and the number is within the
bounds. -/
def Granted (raw : Option String) (n : Nat) : Prop :=
  ∃ s, raw = some s ∧ Asks s n ∧ 1 ≤ n ∧ n ≤ 2 ^ 64 - 1

theorem granted_iff {raw : Option String} {n : Nat} : Granted raw (n + 1) ↔
    ∃ s, raw = some s ∧ natural? (Nat.pow 2 64) (trim s.toList) = some (n + 1) := by
  refine exists_congr fun s => and_congr_right fun _ => ?_
  have hbound : Nat.pow 2 64 = 2 ^ 64 := rfl
  rw [asks_iff, Text.natural?_eq_some_iff, hbound]
  refine and_congr_right fun _ => ?_
  omega

theorem waitSecsFrom_of_granted {raw : Option String} {n : Nat} (h : Granted raw n) :
    waitSecsFrom raw = n := by
  obtain ⟨n, rfl⟩ : ∃ m, n = m + 1 := by
    obtain ⟨s, -, -, hn, -⟩ := h
    exact ⟨n - 1, by omega⟩
  obtain ⟨s, rfl, hs⟩ := granted_iff.mp h
  rw [waitSecsFrom, hs]

theorem waitSecsFrom_of_not_granted {raw : Option String} (h : ∀ n, ¬ Granted raw n) :
    waitSecsFrom raw = 3600 := by
  cases raw with
  | none => rfl
  | some s =>
    rw [waitSecsFrom]
    split
    · next n hn => exact absurd (granted_iff.mpr ⟨s, rfl, hn⟩) (h (n + 1))
    · rfl

theorem waitSecsFrom_pos (raw : Option String) : 0 < waitSecsFrom raw := by
  by_cases h : ∃ n, Granted raw n
  · obtain ⟨n, hn⟩ := h
    rw [waitSecsFrom_of_granted hn]
    obtain ⟨s, -, -, hpos, -⟩ := hn
    exact hpos
  · rw [waitSecsFrom_of_not_granted fun n hn => h ⟨n, hn⟩]
    decide

/-- The waiting time is what a text asks for with digits, if that is a number of seconds from 1 to
the greatest that has 64 bits, and the default otherwise. -/
theorem waitSecsFrom_exact :
    (∀ raw : Option String,
      (∀ n, waitSecsFrom raw = n → n ≠ 3600 → Granted raw n) ∧
        (∀ n, Granted raw n → waitSecsFrom raw = n) ∧
        ((∀ n, ¬ Granted raw n) → waitSecsFrom raw = 3600) ∧
        0 < waitSecsFrom raw) ∧
      (∀ s n, Asks s n → n = 0 ∨ 2 ^ 64 ≤ n → waitSecsFrom (some s) = 3600) ∧
      (∀ (s : String) (left right : List Char), Blanks left → Blanks right →
        waitSecsFrom (some (String.ofList (left ++ s.toList ++ right))) =
          waitSecsFrom (some s)) ∧
      ∀ n : Nat, 1 ≤ n → n ≤ 2 ^ 64 - 1 → waitSecsFrom (some (toString n)) = n := by
  refine ⟨fun raw => ⟨fun n hn hne => ?_, fun n => waitSecsFrom_of_granted,
    waitSecsFrom_of_not_granted, waitSecsFrom_pos raw⟩, fun s n hs hn => ?_,
    fun s left right hl hr => ?_, fun n hlow hhigh => ?_⟩
  · by_cases h : ∃ m, Granted raw m
    · obtain ⟨m, hm⟩ := h
      rwa [← hn, waitSecsFrom_of_granted hm]
    · exact absurd (hn.symm.trans (waitSecsFrom_of_not_granted fun m hm => h ⟨m, hm⟩)) hne
  · refine waitSecsFrom_of_not_granted fun m hm => ?_
    obtain ⟨t, ht, hask, hlow, hhigh⟩ := hm
    obtain rfl := Option.some.inj ht
    have hmn : m = n := (asks_iff.mp hask).unique (asks_iff.mp hs)
    omega
  · rw [waitSecsFrom, waitSecsFrom, String.toList_ofList, Text.trim_padded hl hr]
  · refine waitSecsFrom_of_granted ⟨_, rfl, ?_, hlow, hhigh⟩
    rw [asks_iff, (Text.numeral_toString n).trim_eq_self]
    exact Text.numeral_toString n

-- An ideographic space counts as a blank, and an inner one does not come off.
example : waitSecsFrom (some "\u3000+007 ") = 7 ∧ waitSecsFrom (some "1 0") = 3600 := by decide

/-! ### What the environment decides -/

section Process

variable {p q : ProcessView} {home : Bytes}

theorem home?_eq_some_iff {env : List Bytes} : home? env = some home ↔
    home ≠ [] ∧ entryOf (Bytes.ofString "HOME") env = some (join (Bytes.ofString "HOME") home) := by
  rw [home?, Option.filter_eq_some_iff, Environment.lookup_eq_some_iff, and_comm]
  simp

theorem home?_eq_none_iff {env : List Bytes} : home? env = none ↔
    entryOf (Bytes.ofString "HOME") env = none ∨
      entryOf (Bytes.ofString "HOME") env = some (join (Bytes.ofString "HOME") []) := by
  rw [← Environment.lookup_eq_some_iff, ← Environment.lookup_eq_none_iff_entryOf, home?]
  cases Environment.lookup (Bytes.ofString "HOME") env <;> simp

theorem waitSecsIn_of_text {env : List Bytes} {s : String}
    (h : entryOf (Bytes.ofString Protocol.waitVariable) env =
      some (join (Bytes.ofString Protocol.waitVariable) (Bytes.ofString s))) :
    waitSecsIn env = waitSecsFrom (some s) := by
  have hs : Utf8.decode? (Bytes.ofString s) = some s := Utf8.decode?_eq_some_iff.mpr rfl
  rw [waitSecsIn, Environment.lookup_eq_some_iff.mpr h, Option.bind_some, hs]

theorem waitSecsIn_of_no_text {env : List Bytes}
    (h : ∀ s, entryOf (Bytes.ofString Protocol.waitVariable) env ≠
      some (join (Bytes.ofString Protocol.waitVariable) (Bytes.ofString s))) :
    waitSecsIn env = 3600 := by
  rw [waitSecsIn]
  cases hl : Environment.lookup (Bytes.ofString Protocol.waitVariable) env with
  | none => rfl
  | some value =>
    cases hd : Utf8.decode? value with
    | none =>
      rw [Option.bind_some, hd]
      rfl
    | some s =>
      obtain rfl : Bytes.ofString s = value := Utf8.decode?_eq_some_iff.mp hd
      exact absurd (Environment.lookup_eq_some_iff.mp hl) (h s)

def program? (p : ProcessView) : Option Bytes := p.executable <|> p.argv.head?

def configured (env : List Bytes) (home program : Bytes) : Config :=
  { controlVar := Protocol.controlVariable
    socketPath := socketPathIn home
    helperProgram := program
    connect := .default
    waitMs := 1000 * waitSecsIn env }

theorem ofProcess_congr (hprogram : program? p = program? q)
    (hhome : entryOf (Bytes.ofString "HOME") p.env = entryOf (Bytes.ofString "HOME") q.env)
    (hwait : entryOf (Bytes.ofString Protocol.waitVariable) p.env =
      entryOf (Bytes.ofString Protocol.waitVariable) q.env) :
    ofProcess p = ofProcess q := by
  have hp : (p.executable <|> p.argv.head?) = (q.executable <|> q.argv.head?) := hprogram
  have hh : home? p.env = home? q.env := by
    rw [home?, home?, Environment.lookup_congr hhome]
  have hw : waitSecsIn p.env = waitSecsIn q.env := by
    rw [waitSecsIn, waitSecsIn, Environment.lookup_congr hwait]
  rw [ofProcess, ofProcess, hp, hh, hw]

theorem ofProcess_of_home {program : Bytes} (hhome : home? p.env = some home)
    (hprogram : program? p = some program) :
    ofProcess p = .ok (configured p.env home program) := by
  have hp : (p.executable <|> p.argv.head?) = some program := hprogram
  rw [ofProcess, hhome, hp]
  rfl

theorem ofProcess_cases (p : ProcessView) :
    (home? p.env = none ∧ ofProcess p =
      .error (.setup "locate helper socket" (.explained .notFound "HOME is not set"))) ∨
    (program? p = none ∧ ofProcess p =
      .error (.setup "resolve helper program" (.explained .notFound "argv[0] is missing"))) ∨
    ∃ home program, home? p.env = some home ∧ program? p = some program ∧
      ofProcess p = .ok (configured p.env home program) := by
  cases hhome : home? p.env with
  | none => exact .inl ⟨rfl, by rw [ofProcess, hhome]⟩
  | some home =>
    cases hprogram : program? p with
    | none =>
      have hp : (p.executable <|> p.argv.head?) = none := hprogram
      exact .inr (.inl ⟨rfl, by rw [ofProcess, hhome, hp]⟩)
    | some program =>
      exact .inr (.inr ⟨home, program, rfl, rfl, ofProcess_of_home hhome hprogram⟩)

theorem setup_of_ofProcess {e : HandoffError} (h : ofProcess p = .error e) :
    ∃ what source, e = .setup what source := by
  obtain ⟨-, he⟩ | ⟨-, he⟩ | ⟨home, program, -, -, hok⟩ := ofProcess_cases p
  · exact ⟨_, _, Except.error.inj (h.symm.trans he)⟩
  · exact ⟨_, _, Except.error.inj (h.symm.trans he)⟩
  · cases h.symm.trans hok

theorem exists_error_iff (hprogram : program? p ≠ none) :
    (∃ e, ofProcess p = .error e) ↔ home? p.env = none := by
  obtain ⟨hn, he⟩ | ⟨hn, -⟩ | ⟨home, program, hh, -, hok⟩ := ofProcess_cases p
  · exact iff_of_true ⟨_, he⟩ hn
  · exact absurd hn hprogram
  · simp [hok, hh]

theorem socketPath_of_ofProcess {config : Config} (h : ofProcess p = .ok config) :
    ∃ home, Environment.lookup (Bytes.ofString "HOME") p.env = some home ∧
      config.socketPath = socketPathIn home := by
  obtain ⟨-, he⟩ | ⟨-, he⟩ | ⟨home, program, hh, -, hok⟩ := ofProcess_cases p
  · cases h.symm.trans he
  · cases h.symm.trans he
  · obtain ⟨-, hentry⟩ := home?_eq_some_iff.mp hh
    obtain rfl := Except.ok.inj (h.symm.trans hok)
    exact ⟨home, Environment.lookup_eq_some_iff.mpr hentry, rfl⟩

theorem socketPathIn_eq (h : home ≠ []) : socketPathIn home =
    home ++ (if home.getLast? = some slash then [] else [slash]) ++
      Bytes.ofString ".kart.socket" := by
  have hrelative : Path.isAbsolute (Bytes.ofString ".kart.socket") = false := by decide
  rw [socketPathIn, Protocol.socketFileName, Path.join, if_neg (by simp [hrelative])]
  by_cases hlast : home.getLast? = some slash
  · rw [if_pos (.inr hlast), if_pos hlast, List.append_nil]
  · rw [if_neg (by simp [h, hlast]), if_neg hlast, List.append_assoc, List.singleton_append]

/-- Of the environment two entries count: processes that run one program and agree on the first
entry for `HOME` and on the first for the waiting time are configured alike. Without a home
directory there is no configuration; with one, the socket is in it, byte for byte, and the waiting
time is what the text of the second entry asks for, or the default where it is no text. -/
theorem ofProcess_of_two_entries :
    (∀ p q : ProcessView, program? p = program? q →
      entryOf (Bytes.ofString "HOME") p.env = entryOf (Bytes.ofString "HOME") q.env →
      entryOf (Bytes.ofString "KART_HELPER_WAIT_SECS") p.env =
        entryOf (Bytes.ofString "KART_HELPER_WAIT_SECS") q.env →
      ofProcess p = ofProcess q) ∧
    ∀ (p : ProcessView) (program : Bytes), p.executable = some program →
      let home := entryOf (Bytes.ofString "HOME") p.env
      let wait := entryOf (Bytes.ofString "KART_HELPER_WAIT_SECS") p.env
      ((∃ e, ofProcess p = .error e) ↔
        home = none ∨ home = some (join (Bytes.ofString "HOME") [])) ∧
      (∀ e, ofProcess p = .error e → ∃ what source, e = .setup what source) ∧
      ∀ value, value ≠ [] → home = some (join (Bytes.ofString "HOME") value) →
        ∃ config, ofProcess p = .ok config ∧ config.helperProgram = program ∧
          config.socketPath = value ++ (if value.getLast? = some slash then [] else [slash]) ++
            Bytes.ofString ".kart.socket" ∧
          (∀ s, wait = some (join (Bytes.ofString "KART_HELPER_WAIT_SECS") (Bytes.ofString s)) →
            config.waitMs = 1000 * waitSecsFrom (some s)) ∧
          ((∀ s, wait ≠ some (join (Bytes.ofString "KART_HELPER_WAIT_SECS") (Bytes.ofString s))) →
            config.waitMs = 1000 * 3600) ∧
          0 < config.waitMs := by
  refine ⟨fun p q => ofProcess_congr, fun p program hexe => ?_⟩
  intro home wait
  have hprogram : program? p = some program := by rw [program?, hexe]; rfl
  refine ⟨?_, fun e => setup_of_ofProcess, fun value hne hvalue => ?_⟩
  · have hne : program? p ≠ none := by simp [hprogram]
    rw [exists_error_iff hne, home?_eq_none_iff]
  · have hhome : home? p.env = some value := home?_eq_some_iff.mpr ⟨hne, hvalue⟩
    refine ⟨_, ofProcess_of_home hhome hprogram, rfl, socketPathIn_eq hne, fun s hs => ?_,
      fun hnone => ?_, Nat.mul_pos (by decide) (waitSecsFrom_pos _)⟩
    · exact congrArg (1000 * ·) (waitSecsIn_of_text hs)
    · exact congrArg (1000 * ·) (waitSecsIn_of_no_text hnone)

/-- Two environments with nothing in common but the two entries, and a home directory each behind
the first one. -/
theorem ofProcess_of_two_entries_shuffled :
    let own : ProcessView :=
      { pid := 1
        env := ["HOMEX=/x", "HOME", "HOME=/a/", "KART_HELPER_WAIT_SECS= +05", "HOME=/b"].map
          Bytes.ofString
        argv := []
        cwd := .ok [47]
        executable := some [107] }
    let other : ProcessView :=
      { own with env := ["", "KART_HELPER_WAIT_SECS= +05", "=HOME=/c", "HOME=/a/", "HOME=",
          "KART_HELPER_WAIT_SECS=9"].map Bytes.ofString }
    ∃ config, ofProcess own = .ok config ∧ ofProcess other = .ok config ∧
      config.socketPath = Bytes.ofString "/a/.kart.socket" ∧ config.waitMs = 5000 := by
  intro own other
  have hsame : ofProcess own = ofProcess other :=
    ofProcess_of_two_entries.1 own other rfl (by decide) (by decide)
  obtain ⟨-, -, hfound⟩ := ofProcess_of_two_entries.2 own [107] rfl
  obtain ⟨config, hok, -, hsocket, hwait, -⟩ :=
    hfound (Bytes.ofString "/a/") (by decide) (by decide)
  have hms : config.waitMs = 1000 * waitSecsFrom (some " +05") := hwait " +05" (by decide)
  exact ⟨config, hok, hsame ▸ hok, hsocket, hms⟩

end Process

end HelperHandoff.Config
