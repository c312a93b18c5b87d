/-
  Nse.Core.ConntrackForm — the lines of the connection tracking table, and what
  `parse_conntrack_line` reads from them.

  A line is laid out from a `Printed` entry. `scanWords_words`: the scan keeps the first
  source and destination, and for each port the first value that is not zero. So
  (`conntrack_line_iff`) an entry is read as it was printed exactly when no port of the
  original tuple that is zero or left out meets another one in the reply, and a line raises
  exactly when a port it comes to convert is no number. As built, a source port of zero is
  read from the reply, and `sport=x` raises (`a_port_of_zero_is_read_from_the_reply`).
-/

import Nse.Core.Conntrack
import Nse.Lib.PyFields
import Mathlib.Algebra.Group.Nat.Defs

namespace Nse.Conntrack

open PyStr (Word)

variable [U : PyStr.Unicode]

/-! ## The printed form -/

/-- A word without `=`. -/
structure Name (s : String) : Prop where
  word : Word s
  plain : '=' ∉ s.toList

/-- `key=value`. -/
def field (key value : String) : String := key ++ "=" ++ value

structure Tuple where
  src : String
  dst : String
  ports : Option (Nat × Nat)
  src_name : Name src
  dst_name : Name dst
  ports_le : ∀ p ∈ ports, p.1 ≤ 65535 ∧ p.2 ≤ 65535

namespace Tuple

variable (t : Tuple)

def portWords : List String :=
  match t.ports with
  | some (s, d) => [field "sport" (toString s), field "dport" (toString d)]
  | none => []

def words : List String := field "src" t.src :: field "dst" t.dst :: t.portWords

def sport : Option Int := t.ports.map fun p => (p.1 : Int)

def dport : Option Int := t.ports.map fun p => (p.2 : Int)

end Tuple

/-- An entry of the table. A state is printed for TCP. -/
structure Printed where
  family : String
  familyNumber : Nat
  proto : String
  protoNumber : Nat
  timeout : Option Nat
  state : Option String
  original : Tuple
  flags : List String
  reply : Tuple
  fields : List (String × String)
  family_name : Name family
  proto_name : Name proto
  state_name : ∀ s ∈ state, Name s
  state_tcp : state.isSome = true ↔ proto = "tcp"
  flags_name : ∀ f ∈ flags, Name f
  fields_key : ∀ f ∈ fields, '=' ∉ f.1.toList ∧ f.1 ∉ ["src", "dst", "sport", "dport"]
  fields_word : ∀ f ∈ fields, Word (field f.1 f.2)

namespace Printed

variable (e : Printed)

/-- The words before the original tuple. -/
def head : List String :=
  [e.family, toString e.familyNumber, e.proto, toString e.protoNumber] ++ (e.timeout.map toString).toList ++
    e.state.toList

def fieldWords : List String := e.fields.map fun f => field f.1 f.2

def words : List String := e.head ++ e.original.words ++ e.flags ++ e.reply.words ++ e.fieldWords

/-- The line, with `gaps` further blanks after the words. -/
def line (gaps : List Nat) : String := String.ofList (PyStr.layOut (e.words.zip gaps))

end Printed

/-! ## Words -/

omit U in
theorem prefix_field {key : List Char} : ∀ {k v : List Char}, '=' ∉ k → '=' ∉ key →
    ((key ++ ['=']).isPrefixOf (k ++ '=' :: v) = true ↔ k = key) := by
  intro k v hk hkey
  induction key generalizing k with
  | nil =>
    cases k with
    | nil => simp
    | cons c k =>
      have hc : '=' ≠ c := by
        rintro rfl
        exact hk List.mem_cons_self
      simp [hc]
  | cons d key ih =>
    have hd : '=' ≠ d := by
      rintro rfl
      exact hkey List.mem_cons_self
    cases k with
    | nil => simp [hd.symm]
    | cons c k =>
      have ih := ih (fun h => hk (List.mem_cons_of_mem c h)) (fun h => hkey (List.mem_cons_of_mem d h))
      simp only [List.cons_append, List.isPrefixOf_cons_cons, Bool.and_eq_true, beq_iff_eq, ih, List.cons.injEq]
      rw [eq_comm (a := d)]

omit U in
theorem startsWith_field {key k v : String} (hk : '=' ∉ k.toList) (hkey : '=' ∉ key.toList) :
    PyStr.startsWith (field k v) (field key "") = true ↔ k = key := by
  unfold PyStr.startsWith field
  simp only [String.toList_append, show "=".toList = ['='] from rfl, show "".toList = [] from rfl, List.append_nil,
    List.append_assoc, List.singleton_append]
  rw [prefix_field hk hkey, String.toList_inj]

omit U in
theorem startsWith_name {key p : String} (hp : '=' ∉ p.toList) : PyStr.startsWith p (field key "") = false := by
  rw [Bool.eq_false_iff]
  intro h
  have hfront := List.isPrefixOf_iff_prefix.mp h
  have hmem : '=' ∈ (field key "").toList := by simp [field]
  exact hp (hfront.subset hmem)

omit U in
theorem valueOf_field {k v : String} (hk : '=' ∉ k.toList) (hv : '=' ∉ v.toList) : valueOf (field k v) = v := by
  have hsplit : PyStr.splitOn '=' (field k v) = [k, v] := by
    rw [PyStr.splitOn_first hk (u := v) (by simp [field]), PyStr.splitOn_whole hv]
  simp [valueOf, hsplit]

omit U in
theorem keys_eq : field "src" "" = "src=" ∧ field "dst" "" = "dst=" ∧ field "sport" "" = "sport=" ∧
    field "dport" "" = "dport=" := by decide

theorem scanWord_name {f : Found} {p : String} (hp : '=' ∉ p.toList) : scanWord f p = .ok f := by
  obtain ⟨hsrc, hdst, hsport, hdport⟩ := keys_eq
  unfold scanWord
  rw [← hsrc, ← hdst, ← hsport, ← hdport]
  simp [startsWith_name hp]

/-- What a `key=value` does, by its key. -/
theorem scanWord_field {f : Found} {k v : String} (hk : '=' ∉ k.toList) : scanWord f (field k v) =
    if k = "src" ∧ falsy "" f.src = true then .ok { f with src := some (valueOf (field k v)) }
    else if k = "dst" ∧ falsy "" f.dst = true then .ok { f with dst := some (valueOf (field k v)) }
    else if k = "sport" ∧ falsy 0 f.sport = true then (intOf (valueOf (field k v))).map fun n =>
      { f with sport := some n }
    else if k = "dport" ∧ falsy 0 f.dport = true then (intOf (valueOf (field k v))).map fun n =>
      { f with dport := some n }
    else .ok f := by
  obtain ⟨hsrc, hdst, hsport, hdport⟩ := keys_eq
  unfold scanWord
  rw [← hsrc, ← hdst, ← hsport, ← hdport]
  simp only [Bool.and_eq_true, startsWith_field hk (by decide : '=' ∉ "src".toList),
    startsWith_field hk (by decide : '=' ∉ "dst".toList), startsWith_field hk (by decide : '=' ∉ "sport".toList),
    startsWith_field hk (by decide : '=' ∉ "dport".toList)]

theorem scanWords_append : ∀ {ps qs : List String} {f : Found},
    scanWords f (ps ++ qs) = (scanWords f ps).bind fun f => scanWords f qs
  | [], _, _ => rfl
  | p :: ps, qs, f => by
    simp only [List.cons_append, scanWords]
    cases scanWord f p with
    | error _ => rfl
    | ok g => exact scanWords_append

/-- Words that are no tuple's. -/
theorem scanWords_idle {f : Found} : ∀ {ps : List String}, (∀ p ∈ ps, scanWord f p = .ok f) → scanWords f ps = .ok f
  | [], _ => rfl
  | p :: ps, h => by
    rw [scanWords, h p List.mem_cons_self]
    exact scanWords_idle fun q hq => h q (List.mem_cons_of_mem p hq)

/-! ## Tuples -/

/-- The first value that counts as true, or the last one. -/
def later (found next : Option Int) : Option Int := if falsy 0 found = true then next.or found else found

theorem intOf_port {n : Nat} (h : n ≤ 65535) : intOf (toString n) = .ok (n : Int) := by
  have hsmall : n < 10 ^ 640 := calc
    n < 10 ^ 5 := by omega
    _ ≤ 10 ^ 640 := Nat.pow_le_pow_right (by decide) (by decide)
  exact intOf_toString (PyStr.withinLimit_toString hsmall)

theorem scan_port {f : Found} {n : Nat} (h : n ≤ 65535) :
    scanWord f (field "sport" (toString n)) = .ok { f with sport := later f.sport (some n) } ∧
      scanWord f (field "dport" (toString n)) = .ok { f with dport := later f.dport (some n) } := by
  have hvalue : ∀ key ∈ ["sport", "dport"], valueOf (field key (toString n)) = toString n := by
    intro key hkey
    refine valueOf_field ?_ (PyStr.not_mem_toString (by decide))
    simp only [List.mem_cons, List.not_mem_nil, or_false] at hkey
    rcases hkey with rfl | rfl <;> decide
  rw [scanWord_field (by decide), scanWord_field (by decide), hvalue "sport" (by simp), hvalue "dport" (by simp),
    intOf_port h]
  constructor
  · by_cases hf : falsy 0 f.sport = true
    · simp [hf, later, Except.map]
    · simp [hf, later]
  · by_cases hf : falsy 0 f.dport = true
    · simp [hf, later, Except.map]
    · simp [hf, later]

omit U in
theorem later_none (found : Option Int) : later found none = found := by
  unfold later
  split <;> simp

theorem scan_portWords {t : Tuple} {f : Found} : scanWords f t.portWords =
    .ok { f with sport := later f.sport t.sport, dport := later f.dport t.dport } := by
  unfold Tuple.portWords Tuple.sport Tuple.dport
  cases hports : t.ports with
  | none => simp [scanWords, later_none]
  | some p =>
    obtain ⟨hs, hd⟩ := t.ports_le p hports
    simp only [scanWords, (scan_port hs).1, Except.bind, (scan_port hd).2, Option.map_some]

/-- The original tuple is taken over. -/
theorem scan_original (t : Tuple) :
    scanWords {} t.words = .ok { src := some t.src, dst := some t.dst, sport := t.sport, dport := t.dport } := by
  have hsrc : scanWord {} (field "src" t.src) = .ok { src := some t.src } := by
    rw [scanWord_field (by decide), valueOf_field (by decide) t.src_name.plain]
    rfl
  have hdst : scanWord { src := some t.src } (field "dst" t.dst) = .ok { src := some t.src, dst := some t.dst } := by
    rw [scanWord_field (by decide), valueOf_field (by decide) t.dst_name.plain]
    rfl
  rw [Tuple.words, scanWords, hsrc, Except.bind, scanWords, hdst, Except.bind, scan_portWords]
  simp [later, falsy]

/-- Of a second tuple only the ports can still be taken over. -/
theorem scan_reply {t : Tuple} {f : Found} (hsrc : falsy "" f.src = false) (hdst : falsy "" f.dst = false) :
    scanWords f t.words = .ok { f with sport := later f.sport t.sport, dport := later f.dport t.dport } := by
  have hsrc' : scanWord f (field "src" t.src) = .ok f := by
    rw [scanWord_field (by decide)]
    simp [hsrc]
  have hdst' : scanWord f (field "dst" t.dst) = .ok f := by
    rw [scanWord_field (by decide)]
    simp [hdst]
  rw [Tuple.words, scanWords, hsrc', Except.bind, scanWords, hdst', Except.bind, scan_portWords]

/-- A value of the original is kept: it counts as true, or the reply has none or the same. -/
def Kept (original reply : Option Int) : Prop := falsy 0 original = false ∨ reply = none ∨ reply = original

omit U in
theorem later_eq_iff {original reply : Option Int} : later original reply = original ↔ Kept original reply := by
  unfold later Kept
  by_cases hf : falsy 0 original = true
  · rw [if_pos hf]
    cases reply with
    | none => simp
    | some n => simp [hf]
  · simp [hf]

/-! ## Whole entries -/

theorem scan_fields {e : Printed} {f : Found} : scanWords f e.fieldWords = .ok f := by
  refine scanWords_idle ?_
  intro p hp
  obtain ⟨kv, hkv, rfl⟩ := List.mem_map.mp hp
  obtain ⟨hplain, hkey⟩ := e.fields_key kv hkv
  simp only [List.mem_cons, List.not_mem_nil, or_false, not_or] at hkey
  rw [scanWord_field hplain]
  simp [hkey]

theorem scan_names {ps : List String} {f : Found} (h : ∀ p ∈ ps, '=' ∉ p.toList) : scanWords f ps = .ok f :=
  scanWords_idle fun p hp => scanWord_name (h p hp)

theorem head_plain {e : Printed} : ∀ p ∈ e.head, '=' ∉ p.toList := by
  intro p hp
  have hnumber : ∀ n : Nat, '=' ∉ (toString n).toList := fun n => PyStr.not_mem_toString (by decide)
  simp only [Printed.head, List.mem_append, List.mem_cons, List.not_mem_nil, or_false, Option.mem_toList] at hp
  rcases hp with ((rfl | rfl | rfl | rfl) | hp) | hp
  · exact e.family_name.plain
  · exact hnumber _
  · exact e.proto_name.plain
  · exact hnumber _
  · obtain ⟨n, -, rfl⟩ := Option.map_eq_some_iff.mp hp
    exact hnumber n
  · exact (e.state_name p hp).plain

/-- The scan keeps the addresses of the original tuple, and of the ports what `later` says. -/
theorem scanWords_words (e : Printed) : scanWords {} e.words =
    .ok { src := some e.original.src, dst := some e.original.dst
          sport := later e.original.sport e.reply.sport, dport := later e.original.dport e.reply.dport } := by
  have hsrc := e.original.src_name.word.nonempty
  have hdst := e.original.dst_name.word.nonempty
  unfold Printed.words
  rw [scanWords_append, scanWords_append, scanWords_append, scanWords_append, scan_names head_plain,
    Except.bind, scan_original,
    Except.bind, scan_names (fun p hp => (e.flags_name p hp).plain), Except.bind,
    scan_reply (by simp [falsy, hsrc]) (by simp [falsy, hdst]), Except.bind, scan_fields]

theorem word_field {k v : String} (hk : ∀ c ∈ k.toList, U.isSpace c = false)
    (hv : ∀ c ∈ v.toList, U.isSpace c = false) :
    Word (field k v) where
  nonempty := by simp [field]
  solid := by
    intro c hc
    simp only [field, String.toList_append, List.mem_append] at hc
    rcases hc with (hc | hc) | hc
    · exact hk c hc
    · exact PyStr.solid_of_ascii (s := "=") (by decide) c hc
    · exact hv c hc

theorem word_of_tuple {t : Tuple} : ∀ w ∈ t.words, Word w := by
  have hkey : ∀ key ∈ ["src", "dst", "sport", "dport"], ∀ c ∈ key.toList, U.isSpace c = false := by
    intro key hkey
    refine PyStr.solid_of_ascii ?_
    simp only [List.mem_cons, List.not_mem_nil, or_false] at hkey
    rcases hkey with rfl | rfl | rfl | rfl <;> decide
  intro w hw
  rcases List.mem_cons.mp hw with rfl | hw
  · exact word_field (hkey _ (by simp)) t.src_name.word.solid
  · rcases List.mem_cons.mp hw with rfl | hw
    · exact word_field (hkey _ (by simp)) t.dst_name.word.solid
    · unfold Tuple.portWords at hw
      split at hw
      · simp only [List.mem_cons, List.not_mem_nil, or_false] at hw
        rcases hw with rfl | rfl
        · exact word_field (hkey _ (by simp)) (PyStr.word_toString _).solid
        · exact word_field (hkey _ (by simp)) (PyStr.word_toString _).solid
      · cases hw

theorem word_of_head {e : Printed} : ∀ w ∈ e.head, Word w := by
  intro w hw
  simp only [Printed.head, List.mem_append, List.mem_cons, List.not_mem_nil, or_false, Option.mem_toList] at hw
  rcases hw with ((rfl | rfl | rfl | rfl) | hw) | hw
  · exact e.family_name.word
  · exact PyStr.word_toString _
  · exact e.proto_name.word
  · exact PyStr.word_toString _
  · obtain ⟨n, -, rfl⟩ := Option.map_eq_some_iff.mp hw
    exact PyStr.word_toString n
  · exact (e.state_name w hw).word

theorem word_of_words {e : Printed} : ∀ w ∈ e.words, Word w := by
  intro w hw
  simp only [Printed.words, List.mem_append] at hw
  rcases hw with (((hw | hw) | hw) | hw) | hw
  · exact word_of_head w hw
  · exact word_of_tuple w hw
  · exact (e.flags_name w hw).word
  · exact word_of_tuple w hw
  · obtain ⟨f, hf, rfl⟩ := List.mem_map.mp hw
    exact e.fields_word f hf

/-- The words of a line are those it was laid out from. -/
theorem split_line {e : Printed} {gaps : List Nat} (hgaps : gaps.length = e.words.length) :
    PyStr.split (PyStr.strip (e.line gaps)) = e.words := by
  have hfst : (e.words.zip gaps).map (·.1) = e.words := List.map_fst_zip (by omega)
  rw [PyStr.split_strip, Printed.line, PyStr.split_layOut, hfst]
  intro w hw
  exact word_of_words w.1 (hfst ▸ List.mem_map_of_mem hw)

omit U in
theorem number_no_state (n : Nat) : tcpStates.contains (toString n) = false := by
  have hletter : (tcpStates.all fun s => s.toList.any fun c => !c.isDigit) = true := by decide
  rw [Bool.eq_false_iff]
  intro h
  obtain ⟨c, hc, hdigit⟩ := List.any_eq_true.mp (List.all_eq_true.mp hletter _ (List.contains_iff_mem.mp h))
  rw [Bool.not_eq_true'] at hdigit
  exact PyStr.not_mem_toString hdigit hc

/-- The state stands right after the numbers. -/
theorem find_state {e : Printed} {s : String} (hs : e.state = some s) (hknown : s ∈ tcpStates) :
    ((e.words.drop 4).take 3).find? tcpStates.contains = some s := by
  cases ht : e.timeout with
  | none =>
    simp [Printed.words, Printed.head, ht, hs, hknown]
  | some n =>
    have hnumber : n.repr ∉ tcpStates := by
      simpa using number_no_state n
    simp [Printed.words, Printed.head, ht, hs, hknown, hnumber]

/-- The record holds the entry's protocol, its state and its original tuple. -/
structure Decodes (e : Printed) (r : Entry) : Prop where
  proto : r.proto = PyStr.upper e.proto
  state : e.proto = "tcp" → ∀ s ∈ e.state, s ∈ tcpStates → r.state = s
  src : r.src = e.original.src
  dst : r.dst = e.original.dst
  sport : r.sport = e.original.sport
  dport : r.dport = e.original.dport

/-- The state `parse_conntrack_line` reads. -/
def stateOf (parts : List String) (proto : String) : String :=
  if proto = "tcp" then (((parts.drop 4).take 3).find? tcpStates.contains).getD "UNKNOWN" else "ESTABLISHED"

theorem parse_line {e : Printed} {gaps : List Nat} (hgaps : gaps.length = e.words.length) :
    parseConntrackLine (e.line gaps) = .ok (some
      { proto := PyStr.upper e.proto, state := stateOf e.words e.proto, src := e.original.src, dst := e.original.dst
        sport := later e.original.sport e.reply.sport, dport := later e.original.dport e.reply.dport }) := by
  have hlength : ¬ e.words.length < 6 := by
    simp [Printed.words, Printed.head, Tuple.words]
    omega
  have hproto : (e.words[2]?).getD "" = e.proto := rfl
  unfold parseConntrackLine
  rw [split_line hgaps]
  dsimp only
  rw [if_neg hlength, hproto, scanWords_words]
  simp [Except.map, e.original.src_name.word.nonempty, e.original.dst_name.word.nonempty, stateOf]

theorem decodes_iff {e : Printed} {gaps : List Nat} (hgaps : gaps.length = e.words.length) :
    (∃ r, parseConntrackLine (e.line gaps) = .ok (some r) ∧ Decodes e r) ↔
      Kept e.original.sport e.reply.sport ∧ Kept e.original.dport e.reply.dport := by
  rw [parse_line hgaps, ← later_eq_iff, ← later_eq_iff]
  constructor
  · intro ⟨r, hr, hdecodes⟩
    cases hr
    exact ⟨hdecodes.sport, hdecodes.dport⟩
  · intro ⟨hsport, hdport⟩
    refine ⟨_, rfl, rfl, ?_, rfl, rfl, hsport, hdport⟩
    intro htcp s hs hknown
    show stateOf e.words e.proto = s
    rw [stateOf, if_pos htcp, find_state hs hknown, Option.getD_some]

/-! ## Any line -/

/-- The values that stand under a key, in order. -/
def texts (key : String) (parts : List String) : List String := (parts.filter (PyStr.startsWith · key)).map valueOf

/-- The first of the values that is not zero is a number, if there is one. -/
def Readable (values : List String) : Prop :=
  ∀ before v after, values = before ++ v :: after → (∀ u ∈ before, intOf u = .ok 0) → ∃ n, intOf v = .ok n

theorem readable_nil : Readable [] := by
  intro before v after h
  cases before <;> cases h

theorem readable_cons {v : String} {vs : List String} :
    Readable (v :: vs) ↔ ∃ n, intOf v = .ok n ∧ (n = 0 → Readable vs) := by
  constructor
  · intro h
    obtain ⟨n, hn⟩ := h [] v vs rfl (by simp)
    refine ⟨n, hn, ?_⟩
    rintro rfl before w after heq hbefore
    refine h (v :: before) w after (by rw [heq]; rfl) ?_
    intro u hu
    rcases List.mem_cons.mp hu with rfl | hu
    · exact hn
    · exact hbefore u hu
  · intro ⟨n, hn, hrest⟩ before w after heq hbefore
    cases before with
    | nil =>
      cases heq
      exact ⟨n, hn⟩
    | cons b before =>
      cases heq
      have hzero := hbefore _ List.mem_cons_self
      rw [hn] at hzero
      cases hzero
      exact hrest rfl before w after rfl fun u hu => hbefore u (List.mem_cons_of_mem _ hu)

omit U in
theorem startsWith_other {p key : String} (h : PyStr.startsWith p key = true) (key' : String)
    (hkeys : (key.toList.isPrefixOf key'.toList || key'.toList.isPrefixOf key.toList) = false) :
    PyStr.startsWith p key' = false := by
  rw [Bool.eq_false_iff]
  intro h'
  rcases List.prefix_or_prefix_of_prefix (List.isPrefixOf_iff_prefix.mp h)
    (List.isPrefixOf_iff_prefix.mp h') with hp | hp
  · simp [List.isPrefixOf_iff_prefix.mpr hp] at hkeys
  · simp [List.isPrefixOf_iff_prefix.mpr hp] at hkeys

theorem scanWord_sport {f : Found} {p : String} (h : PyStr.startsWith p "sport=" = true) : scanWord f p =
    if falsy 0 f.sport = true then (intOf (valueOf p)).map fun n => { f with sport := some n } else .ok f := by
  unfold scanWord
  simp [h, startsWith_other h "src=" (by decide), startsWith_other h "dst=" (by decide),
    startsWith_other h "dport=" (by decide)]

theorem scanWord_dport {f : Found} {p : String} (h : PyStr.startsWith p "dport=" = true) : scanWord f p =
    if falsy 0 f.dport = true then (intOf (valueOf p)).map fun n => { f with dport := some n } else .ok f := by
  unfold scanWord
  simp [h, startsWith_other h "src=" (by decide), startsWith_other h "dst=" (by decide),
    startsWith_other h "sport=" (by decide)]

/-- A word that gives no port leaves the ports as they are. -/
theorem scanWord_portless {f : Found} {p : String} (hs : PyStr.startsWith p "sport=" = false)
    (hd : PyStr.startsWith p "dport=" = false) :
    ∃ g, scanWord f p = .ok g ∧ g.sport = f.sport ∧ g.dport = f.dport := by
  unfold scanWord
  split
  · exact ⟨_, rfl, rfl, rfl⟩
  · split
    · exact ⟨_, rfl, rfl, rfl⟩
    · simp [hs, hd]

omit U in
theorem texts_cons {key p : String} {parts : List String} : texts key (p :: parts) =
    if PyStr.startsWith p key = true then valueOf p :: texts key parts else texts key parts := by
  unfold texts
  rw [List.filter_cons]
  split <;> rfl

omit U in
theorem falsy_some {n : Int} : falsy 0 (some n) = true ↔ n = 0 := by simp [falsy]

/-- The scan fails exactly on a port it comes to convert. -/
theorem scanWords_ok_iff : ∀ {parts : List String} {f : Found}, (∃ g, scanWords f parts = .ok g) ↔
    (falsy 0 f.sport = true → Readable (texts "sport=" parts)) ∧
      (falsy 0 f.dport = true → Readable (texts "dport=" parts))
  | [], f => by
    simp [scanWords, texts, readable_nil]
  | p :: parts, f => by
    have hstep : ∀ g, scanWord f p = .ok g → scanWords f (p :: parts) = scanWords g parts := by
      intro g hg
      rw [scanWords, hg]
      rfl
    rw [texts_cons, texts_cons]
    by_cases hs : PyStr.startsWith p "sport=" = true
    · rw [if_pos hs, if_neg (by rw [startsWith_other hs "dport=" (by decide)]; decide), readable_cons]
      by_cases hf : falsy 0 f.sport = true
      · have hword := scanWord_sport (f := f) hs
        rw [if_pos hf] at hword
        cases hn : intOf (valueOf p) with
        | error e =>
          rw [hn] at hword
          simp [scanWords, hword, Except.map, Except.bind, hf]
        | ok n =>
          rw [hn] at hword
          rw [hstep _ hword, scanWords_ok_iff, falsy_some]
          simp [hf]
      · have hword := scanWord_sport (f := f) hs
        rw [if_neg hf] at hword
        rw [hstep _ hword, scanWords_ok_iff]
        simp [hf]
    · rw [if_neg hs]
      by_cases hd : PyStr.startsWith p "dport=" = true
      · rw [if_pos hd, readable_cons]
        have hword := scanWord_dport (f := f) hd
        by_cases hf : falsy 0 f.dport = true
        · rw [if_pos hf] at hword
          cases hn : intOf (valueOf p) with
          | error e =>
            rw [hn] at hword
            simp [scanWords, hword, Except.map, Except.bind, hf]
          | ok n =>
            rw [hn] at hword
            rw [hstep _ hword, scanWords_ok_iff, falsy_some]
            simp [hf]
        · rw [if_neg hf] at hword
          rw [hstep _ hword, scanWords_ok_iff]
          simp [hf]
      · rw [if_neg hd]
        obtain ⟨g, hg, hsport, hdport⟩ := scanWord_portless (f := f) (Bool.not_eq_true _ ▸ hs) (Bool.not_eq_true _ ▸ hd)
        rw [hstep g hg, scanWords_ok_iff, hsport, hdport]

theorem parse_ok_iff {line : String} : (∃ r, parseConntrackLine line = .ok r) ↔
    (PyStr.split (PyStr.strip line)).length < 6 ∨ (Readable (texts "sport=" (PyStr.split (PyStr.strip line))) ∧
      Readable (texts "dport=" (PyStr.split (PyStr.strip line)))) := by
  unfold parseConntrackLine
  dsimp only
  by_cases hlen : (PyStr.split (PyStr.strip line)).length < 6
  · simp [hlen]
  · have hscan : (∃ g, scanWords {} (PyStr.split (PyStr.strip line)) = .ok g) ↔ _ := scanWords_ok_iff
    have hempty : falsy 0 ({} : Found).sport = true ∧ falsy 0 ({} : Found).dport = true := by decide
    simp only [hempty, true_implies] at hscan
    rw [if_neg hlen, ← hscan]
    cases scanWords {} (PyStr.split (PyStr.strip line)) with
    | error e => simp [hlen, Except.map]
    | ok g => simp [Except.map]

/-- An entry is read as it was printed exactly when each port of its original tuple is kept
    over the reply's; any line is read without an exception exactly when it is too short or
    its first port of each kind that is not zero is a number. -/
theorem conntrack_line_iff :
    (∀ (e : Printed) (gaps : List Nat), gaps.length = e.words.length →
      ((∃ r, parseConntrackLine (e.line gaps) = .ok (some r) ∧ Decodes e r) ↔
        Kept e.original.sport e.reply.sport ∧ Kept e.original.dport e.reply.dport)) ∧
      ∀ line, (∃ r, parseConntrackLine line = .ok r) ↔
        (PyStr.split (PyStr.strip line)).length < 6 ∨ (Readable (texts "sport=" (PyStr.split (PyStr.strip line))) ∧
          Readable (texts "dport=" (PyStr.split (PyStr.strip line)))) :=
  ⟨fun _ _ hgaps => decodes_iff hgaps, fun _ => parse_ok_iff⟩

end Nse.Conntrack

namespace Nse

open Conntrack

attribute [local instance] PyStr.Unicode.ascii

theorem name_of_ascii {s : String} (hne : s ≠ "")
    (h : s.toList.all (fun c => decide (c.toNat < 128) && !PyStr.asciiSpace c) = true) (hplain : '=' ∉ s.toList) :
      Name s :=
  ⟨⟨hne, PyStr.solid_of_ascii h⟩, hplain⟩

def dnsTuple (src dst : String) (sport dport : Nat) (hsrc : Name src) (hdst : Name dst)
    (hports : sport ≤ 65535 ∧ dport ≤ 65535) : Tuple where
  src
  dst
  ports := some (sport, dport)
  src_name := hsrc
  dst_name := hdst
  ports_le := by
    intro p hp
    cases hp
    exact hports

theorem tenOne_name : Name "10.0.0.1" := name_of_ascii (by decide) (by decide) (by decide)

theorem tenTwo_name : Name "10.0.0.2" := name_of_ascii (by decide) (by decide) (by decide)

/-- A DNS query from this port, and its reply. -/
def dnsFlow (sport : Nat) (h : sport ≤ 65535) : Printed where
  family := "ipv4"
  familyNumber := 2
  proto := "udp"
  protoNumber := 17
  timeout := some 29
  state := none
  original := dnsTuple "10.0.0.1" "10.0.0.2" sport 53 tenOne_name tenTwo_name ⟨h, by decide⟩
  flags := []
  reply := dnsTuple "10.0.0.2" "10.0.0.1" 53 sport tenTwo_name tenOne_name ⟨by decide, h⟩
  fields := []
  family_name := name_of_ascii (by decide) (by decide) (by decide)
  proto_name := name_of_ascii (by decide) (by decide) (by decide)
  state_name := by simp
  state_tcp := by simp
  flags_name := by simp
  fields_key := by simp
  fields_word := by simp

theorem conntrack_line_iff_sample :
    ∃ r, parseConntrackLine ((dnsFlow 54321 (by decide)).line (List.replicate 13 0)) = .ok (some r) ∧
      Decodes (dnsFlow 54321 (by decide)) r :=
  (conntrack_line_iff.1 (dnsFlow 54321 (by decide)) (List.replicate 13 0) rfl).mpr ⟨.inl rfl, .inl rfl⟩

theorem a_port_of_zero_is_read_from_the_reply :
    (∃ (e : Printed) (gaps : List Nat), gaps.length = e.words.length ∧
      ¬ ∃ r, parseConntrackLine (e.line gaps) = .ok (some r) ∧ Decodes e r) ∧
      ∃ line e, parseConntrackLine line = .error e := by
  have hport : ¬ ∃ r, parseConntrackLine ((dnsFlow 0 (by decide)).line (List.replicate 13 0)) = .ok (some r) ∧
      Decodes (dnsFlow 0 (by decide)) r := by
    rw [decodes_iff rfl]
    intro ⟨hsport, _⟩
    exact absurd hsport (by simp [Kept, dnsFlow, dnsTuple, Tuple.sport, falsy])
  have hraise : ∃ e, parseConntrackLine "ipv4 2 udp 17 29 sport=x" = .error e := by
    cases h : parseConntrackLine "ipv4 2 udp 17 29 sport=x" with
    | error e => exact ⟨e, rfl⟩
    | ok r =>
      have hok : (parseConntrackLine "ipv4 2 udp 17 29 sport=x").isOk = false := by decide +kernel
      rw [h] at hok
      cases hok
  exact ⟨⟨_, _, rfl, hport⟩, _, hraise⟩

end Nse
