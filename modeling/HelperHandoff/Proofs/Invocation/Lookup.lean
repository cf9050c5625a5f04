import HelperHandoff.Proofs.Config
import HelperHandoff.Proofs.Invocation.Fidelity
import HelperHandoff.Proofs.Invocation.Helper

/-!
A variable as the process itself looks it up and as it is sent. Both see the same variables, but of
several entries with one name a lookup takes the first and the message the last; the socket is
looked for in the home directory of the first entry. Only where these two entries are shown alike
does the message have the value that was looked up.
-/

set_option autoImplicit false

namespace HelperHandoff

/-! ### Names that are text -/

namespace Environment

theorem ofString_ne_nil {k : String} (h : k ≠ "") : Bytes.ofString k ≠ [] :=
  fun he => h (Utf8.ofString_injective (t := "") he)

theorem isName_ofString {k : String} (h : '=' ∉ k.toList) : IsName (Bytes.ofString k) := by
  intro hm
  obtain ⟨c, hc, hn⟩ := Utf8.exists_of_mem_encode (by decide) (List.mem_of_mem_drop hm)
  have he : c = '=' := Char.toNat_inj.mp hn
  exact h (he ▸ hc)

end Environment

namespace Invocation

open Utf8 (IsText lossy)

section Captured

variable {control : String} {p : ProcessView} {i : Invocation}

theorem keep_named {name : Bytes} (h : name ≠ Bytes.ofString control)
    (vars : List (Bytes × Bytes)) :
    ((keep control vars).filter fun v => v.1 = name) = vars.filter fun v => v.1 = name := by
  rw [filter_keep]
  refine List.filter_eq_self.mpr fun v hv => ?_
  have hname : v.1 = name := of_decide_eq_true (List.mem_filter.mp hv).2
  exact decide_eq_true (hname ▸ h)

theorem get?_environ_of_capture (h : capture p control = .ok i)
    (hnames : ∀ v ∈ Environment.pairs p.env, IsText v.1) {k : String} (hne : k ≠ "")
    (hsep : '=' ∉ k.toList) (hk : k ≠ control) :
    i.environ.get? k =
      (Environment.values (Bytes.ofString k) p.env).getLast?.map lossy := by
  obtain ⟨cwd, -, rfl⟩ := capture_eq_ok_iff.mp h
  have hkept : ∀ v ∈ keep control (Environment.pairs p.env), IsText v.1 :=
    fun v hv => hnames v (mem_keep.mp hv).1
  have hcontrol : Bytes.ofString k ≠ Bytes.ofString control :=
    fun he => hk (Utf8.ofString_injective he)
  rw [get?_environ, filter_lossy hkept, keep_named hcontrol,
    ← Environment.values_eq_pairs (Environment.ofString_ne_nil hne)
      (Environment.isName_ofString hsep), List.getLast?_map, Option.map_map]
  rfl

end Captured

theorem map_lossy_getLast?_eq_iff (values : List Bytes) :
    values.getLast?.map lossy = values.head?.map lossy ↔
      ∀ first ∈ values.head?, ∀ last ∈ values.getLast?, lossy last = lossy first := by
  cases values with
  | nil => simp
  | cons v values =>
    rw [List.getLast?_cons]
    simp

/-- The variables that are sent are those that a lookup finds. Of the entries with one name a lookup
takes the first and the message the last, so that the message has what is looked up exactly if the
two are shown alike; and so it is with the home directory that the socket is in. -/
theorem environ_follows_entries (p : ProcessView) (control : String) (i : Invocation)
    (h : capture p control = .ok i)
    (hnames : ∀ v ∈ Environment.pairs p.env, IsText v.1) :
    (∀ k : String, k ≠ "" → '=' ∉ k.toList → k ≠ control →
      let found := Environment.lookup (Bytes.ofString k) p.env
      let values := Environment.values (Bytes.ofString k) p.env
      (k ∈ i.environ.keys ↔ found.isSome) ∧
        found = values.head? ∧
        i.environ.get? k = values.getLast?.map lossy ∧
        (i.environ.get? k = found.map lossy ↔
          ∀ first ∈ values.head?, ∀ last ∈ values.getLast?, lossy last = lossy first)) ∧
      (control ≠ "HOME" → ∀ config, Config.ofProcess p = .ok config →
        let values := Environment.values (Bytes.ofString "HOME") p.env
        ∃ home sent, values.head? = some home ∧ values.getLast? = some sent ∧
          config.socketPath = Config.socketPathIn home ∧
          i.environ.get? "HOME" = some (lossy sent)) := by
  refine ⟨fun k hne hsep hk => ?_, fun hcontrol config hconfig => ?_⟩
  · intro found values
    have hfound : found = values.head? := Environment.lookup_eq_head? _ _
    have hsent : i.environ.get? k = values.getLast?.map lossy :=
      get?_environ_of_capture h hnames hne hsep hk
    refine ⟨?_, hfound, hsent, ?_⟩
    · rw [SortedMap.mem_keys_iff, hsent, hfound, Option.isSome_map]
      cases values <;> simp
    · rw [hsent, hfound, map_lossy_getLast?_eq_iff]
  · intro values
    obtain ⟨home, hlookup, hsocket⟩ := Config.socketPath_of_ofProcess hconfig
    have hhead : values.head? = some home := (Environment.lookup_eq_head? _ _).symm.trans hlookup
    have hne : values ≠ [] := by
      intro he
      simp [he] at hhead
    have hlast : values.getLast? = some (values.getLast hne) := List.getLast?_eq_some_getLast hne
    have hsent := get?_environ_of_capture h hnames (by decide) (by decide) hcontrol.symm
    exact ⟨home, values.getLast hne, hhead, hlast, hsocket, by rw [hsent, hlast]; rfl⟩

/-- Entries that are not enumerated, and a name that has another value in between. -/
theorem environ_follows_entries_repeated :
    let p : ProcessView :=
      { pid := 1
        env := ["A=1", "A", "HOME=/h", "", "=A=3", "A=2", "A=1"].map Bytes.ofString
        argv := [Bytes.ofString "kart"]
        cwd := .ok [47]
        executable := none }
    ∃ i config, capture p Protocol.controlVariable = .ok i ∧ Config.ofProcess p = .ok config ∧
      (∀ v ∈ Environment.pairs p.env, IsText v.1) ∧
      "A" ∈ i.environ.keys ∧ "B" ∉ i.environ.keys ∧
      i.environ.get? "A" =
        (Environment.lookup (Bytes.ofString "A") p.env).map lossy ∧
      config.socketPath = Bytes.ofString "/h/.kart.socket" ∧
      i.environ.get? "HOME" = some "/h" := by
  intro p
  have hnames : ∀ v ∈ Environment.pairs p.env, IsText v.1 := by
    have htext : ∀ v ∈ Environment.pairs p.env, v.1 ∈ ["A", "HOME", "=A"].map Bytes.ofString := by
      decide
    exact fun v hv => Utf8.isText_of_mem_map (htext v hv)
  obtain ⟨hvalues, hhome⟩ :=
    environ_follows_entries p Protocol.controlVariable _ rfl hnames
  obtain ⟨hkey, -, -, hsame⟩ := hvalues "A" (by decide) (by decide) (by decide)
  obtain ⟨hother, -, -, -⟩ := hvalues "B" (by decide) (by decide) (by decide)
  obtain ⟨home, sent, hfirst, hlast, hsocket, hsent⟩ := hhome (by decide) _ rfl
  have hhomes : Environment.values (Bytes.ofString "HOME") p.env = [Bytes.ofString "/h"] := by
    decide
  rw [hhomes] at hfirst hlast
  obtain rfl : home = Bytes.ofString "/h" := (Option.some.inj hfirst).symm
  obtain rfl : sent = Bytes.ofString "/h" := (Option.some.inj hlast).symm
  have hvaluesA : Environment.values (Bytes.ofString "A") p.env =
      ["1", "2", "1"].map Bytes.ofString := by decide
  refine ⟨_, _, rfl, rfl, hnames, hkey.mpr (by decide),
    fun hb => absurd (hother.mp hb) (by decide), hsame.mpr ?_, hsocket, ?_⟩
  · rw [hvaluesA]
    rintro first hf last hl
    obtain rfl := Option.some.inj hf
    obtain rfl := Option.some.inj hl
    rfl
  · rw [hsent, Utf8.lossy_ofString]

/-- The socket is looked for in one home directory, and another one is sent. -/
theorem environ_of_two_homes :
    let p : ProcessView :=
      { pid := 1
        env := ["HOME=/a", "HOME=/b"].map Bytes.ofString
        argv := [Bytes.ofString "kart"]
        cwd := .ok [47]
        executable := none }
    ∃ i config, capture p Protocol.controlVariable = .ok i ∧ Config.ofProcess p = .ok config ∧
      (∀ v ∈ Environment.pairs p.env, IsText v.1) ∧
      Environment.lookup (Bytes.ofString "HOME") p.env = some (Bytes.ofString "/a") ∧
      config.socketPath = Bytes.ofString "/a/.kart.socket" ∧
      i.environ.get? "HOME" = some "/b" ∧
      i.environ.get? "HOME" ≠
        (Environment.lookup (Bytes.ofString "HOME") p.env).map lossy := by
  intro p
  have hnames : ∀ v ∈ Environment.pairs p.env, IsText v.1 := by
    have htext : ∀ v ∈ Environment.pairs p.env, v.1 ∈ ["HOME"].map Bytes.ofString := by decide
    exact fun v hv => Utf8.isText_of_mem_map (htext v hv)
  have hlookup : Environment.lookup (Bytes.ofString "HOME") p.env = some (Bytes.ofString "/a") := by
    decide
  have hlast : (Environment.values (Bytes.ofString "HOME") p.env).getLast? =
      some (Bytes.ofString "/b") := by decide
  have hcapture : capture p Protocol.controlVariable =
      .ok (ofPairs 1 (Environment.pairs p.env) p.argv [47] Protocol.controlVariable) := rfl
  have hsent := get?_environ_of_capture hcapture hnames (by decide : "HOME" ≠ "") (by decide)
    (by decide)
  rw [hlast, Option.map_some, Utf8.lossy_ofString] at hsent
  refine ⟨_, _, hcapture, rfl, hnames, hlookup, rfl, hsent, ?_⟩
  rw [hsent, hlookup, Option.map_some, Utf8.lossy_ofString]
  decide

end Invocation

end HelperHandoff
