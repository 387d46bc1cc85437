import NulConnect.Error
import NulConnect.Macos.DnsReady
import NulConnect.Macos.NodeRoutes
import NulConnect.Macos.Proxy
import NulConnect.Net.Utf8

/-! What the helper reads of `networksetup`: the readers of its output, and what they give back of
the settings that it prints. -/
namespace NulConnect.Macos
open Net

/-- `Output` of a command. -/
structure CommandOutput where
  success : Bool
  stdout : List UInt8
  stderr : List UInt8
deriving DecidableEq

/-- A command that cannot be run gives the text of its error. -/
def runNetworksetup : Except Text CommandOutput → Except AtrError Text
  | .error err => .error (.networkFailed err)
  | .ok output =>
    if output.success then .ok (fromUtf8Lossy output.stdout)
    else
      let stderr := trim (fromUtf8Lossy output.stderr)
      .error (.networkFailed (if stderr = [] then "networksetup failed".toList else stderr))

/-- `str::to_ascii_lowercase`. -/
def toAsciiLowercase (s : Text) : Text := s.map Char.toLower

/-- `str::contains`. -/
def containsText (s pattern : Text) : Bool := s.tails.any pattern.isPrefixOf

/-- The sign that `from_str` accepts. -/
def withoutPlus : Text → Text
  | '+' :: digits => digits
  | digits => digits

/-- `parse::<u16>`. -/
def parseU16 (s : Text) : Option UInt16 :=
  let digits := withoutPlus s
  if digits ≠ [] ∧ digits.all Char.isDigit ∧ Nat.ofDigitChars 10 digits 0 < 2 ^ 16 then
    some (UInt16.ofNat (Nat.ofDigitChars 10 digits 0))
  else none

/-- The entries in the order of the lines. -/
def parseKeyValueOutput (output : Text) : List (Text × Text) :=
  (lines output).filterMap fun line =>
    (splitOnce ':' line).map fun p => (trim p.1, trim p.2)

/-- `BTreeMap::get`: of the entries with one key the last is kept. -/
def getValue (values : List (Text × Text)) (key : Text) : Option Text := values.reverse.lookup key

/-- The value of the least key. -/
def firstValue (values : List (Text × Text)) : Option Text :=
  (sortDedup (values.map Prod.fst)).head?.bind (getValue values)

def boolValue (value : Option Text) : Bool :=
  match value.map fun value => toAsciiLowercase (trim value) with
  | some value => value = "yes".toList ∨ value = "on".toList ∨ value = "1".toList ∨
      value = "true".toList
  | none => false

def normalizedString (value : Option Text) : Option Text :=
  value.bind fun value =>
    let trimmed := trim value
    if trimmed = [] ∨ trimmed = "(null)".toList then none else some trimmed

def readProxySetting (output : Text) : ProxySetting :=
  let values := parseKeyValueOutput output
  { enabled := boolValue (getValue values "Enabled".toList)
    server := normalizedString (getValue values "Server".toList)
    port := (getValue values "Port".toList).bind parseU16 }

/-- A command that fails is taken for `false`. -/
def readBool : Except AtrError Text → Bool
  | .error _ => false
  | .ok output =>
    match firstValue (parseKeyValueOutput output) with
    | some value => boolValue (some value)
    | none => containsText (toAsciiLowercase output) "yes".toList

def readAutoProxyUrl (output : Text) : AutoProxyUrl :=
  let values := parseKeyValueOutput output
  { enabled := boolValue (getValue values "Enabled".toList)
    url := normalizedString (getValue values "URL".toList) }

/-- A line that says that there are no domains. -/
def isBypassNote (line : Text) : Bool :=
  containsText (toAsciiLowercase line) "there aren".toList ||
    containsText (toAsciiLowercase line) "bypass domain".toList

/-- The entries of a list, one on a line. -/
def readEntries (isNote : Text → Bool) (output : Text) : List Text :=
  ((lines output).map trim).filter fun line => line ≠ [] ∧ ¬ isNote line

def readBypassDomains (output : Text) : List Text := readEntries isBypassNote output

/-- The name on a line; a disabled service is marked with an asterisk. -/
def serviceName (line : Text) : Option Text :=
  let trimmed := trim line
  if trimmed = [] ∨ "An asterisk".toList.isPrefixOf trimmed then none
  else
    match trimmed with
    | '*' :: stripped => some (trim stripped)
    | _ => some trimmed

def listNetworkServices (output : Text) : List Text := (lines output).filterMap serviceName

/-- One reader of `make_service_snapshot`, into its field. -/
def readQuery (q : ProxyQuery) (output : Except AtrError Text) (read : ServiceSettings) :
    Except AtrError ServiceSettings :=
  match q with
  | .webProxy => output.map fun text => { read with webProxy := readProxySetting text }
  | .secureWebProxy => output.map fun text => { read with secureWebProxy := readProxySetting text }
  | .socksProxy => output.map fun text => { read with socksProxy := readProxySetting text }
  | .autoDiscovery => .ok { read with proxyAutoDiscoveryEnabled := readBool output }
  | .autoProxyUrl => output.map fun text => { read with autoProxyUrl := readAutoProxyUrl text }
  | .bypassDomains => output.map fun text => { read with bypassDomains := readBypassDomains text }

/-- `run` gives what each command comes to. -/
def makeServiceSnapshot (run : ProxyQuery → Except Text CommandOutput) :
    Except AtrError ServiceSettings :=
  ProxyQuery.all.foldlM (fun read q => readQuery q (runNetworksetup (run q)) read)
    ProxyQuery.unread

section Printed

def unlines (parts : List Text) : Text := parts.flatMap (· ++ ['\n'])

def printPairs (pairs : List (Text × Text)) : Text :=
  unlines (pairs.map fun p => p.1 ++ ": ".toList ++ p.2)

/-- The assumed form of a proxy. A port that is not set has an empty value here, where
`networksetup` itself prints the port 0. -/
def printedSetting (setting : ProxySetting) : List (Text × Text) :=
  [("Enabled".toList, if setting.enabled then "Yes".toList else "No".toList),
    ("Server".toList, setting.server.getD []),
    ("Port".toList, (setting.port.map fun port => Nat.toDigits 10 port.toNat).getD []),
    ("Authenticated Proxy Enabled".toList, "0".toList)]

/-- A list, or the note that it is empty. -/
def printedEntries (note : Text) (entries : List Text) : Text :=
  unlines (if entries = [] then [note] else entries)

def noDomainsNote : Text := "There aren't any bypass domains set on ".toList

def noDomains (service : Text) : Text := noDomainsNote ++ (service ++ ".".toList)

/-- The assumed form of what `networksetup` prints of the settings of a service. -/
def printedText (service : Text) (x : ServiceSettings) : ProxyQuery → Text
  | .webProxy => printPairs (printedSetting x.webProxy)
  | .secureWebProxy => printPairs (printedSetting x.secureWebProxy)
  | .socksProxy => printPairs (printedSetting x.socksProxy)
  | .autoDiscovery => printPairs [("Auto Proxy Discovery".toList,
      if x.proxyAutoDiscoveryEnabled then "On".toList else "Off".toList)]
  | .autoProxyUrl => printPairs [("URL".toList, x.autoProxyUrl.url.getD "(null)".toList),
      ("Enabled".toList, if x.autoProxyUrl.enabled then "Yes".toList else "No".toList)]
  | .bypassDomains => printedEntries (noDomains service) x.bypassDomains

def printed (service : Text) (x : ServiceSettings) (q : ProxyQuery) : Except Text CommandOutput :=
  .ok { success := true, stdout := toUtf8 (printedText service x q), stderr := [] }

def servicesNote : Text := "An asterisk (*) denotes that a network service is disabled.".toList

/-- The assumed form of the list of the services, with a mark for those that are disabled. -/
def printedServices (disabled : Text → Bool) (services : List Text) : Text :=
  unlines (servicesNote ::
    services.map fun service => if disabled service then '*' :: service else service)

end Printed

/-- A text that the readers give back: one line without blanks around it. -/
structure IsField (s : Text) : Prop where
  trimmed : trim s = s
  nonempty : s ≠ []
  line : '\n' ∉ s

/-- A setting for which `networksetup` has no other meaning. -/
def IsValue (s : Text) : Prop := IsField s ∧ s ≠ "(null)".toList

/-- Settings that survive being printed and read. -/
structure Readable (x : ServiceSettings) : Prop where
  web : ∀ server, x.webProxy.server = some server → IsValue server
  secureWeb : ∀ server, x.secureWebProxy.server = some server → IsValue server
  socks : ∀ server, x.socksProxy.server = some server → IsValue server
  url : ∀ url, x.autoProxyUrl.url = some url → IsValue url
  domains : ∀ domain ∈ x.bypassDomains, IsField domain ∧ isBypassNote domain = false

/-- The name of a service that the list gives back. -/
structure IsServiceName (service : Text) : Prop where
  field : IsField service
  noNote : "An asterisk".toList.isPrefixOf service = false
  noMark : service.head? ≠ some '*'

section Lines

variable {s t : Text} {c : Char}

theorem mem_of_mem_trim (h : c ∈ trim s) : c ∈ s := by
  obtain ⟨front, back, hs, -, -⟩ := trimMatches_split isWhitespace s
  rw [hs, List.append_assoc]
  exact List.mem_append_right front (List.mem_append_left back h)

theorem trim_trim (s : Text) : trim (trim s) = trim s :=
  trimMatches_eq_self (fun _ => trimMatches_head) fun _ => trimMatches_getLast

/-- What is trimmed makes no difference behind a text. -/
theorem trim_append (h : ∀ c ∈ t, isWhitespace c) : trim (s ++ t) = trim s := by
  have hall : t.all isWhitespace := List.all_eq_true.mpr h
  unfold trim trimMatches
  rw [List.dropWhile_append]
  split_ifs with hs
  · have hdrop : t.dropWhile isWhitespace = [] := List.dropWhile_eq_nil_iff.mpr h
    rw [hdrop, List.isEmpty_iff.mp hs]
  · rw [rdropWhile_append, if_pos hall]

theorem trim_blanks (n : ℕ) (s : Text) : trim (List.replicate n ' ' ++ s) = trim s := by
  induction n with
  | zero => rfl
  | succ n ih =>
    have hblank : trim (' ' :: (List.replicate n ' ' ++ s)) = trim (List.replicate n ' ' ++ s) := by
      unfold trim trimMatches
      rw [List.dropWhile_cons_of_pos (by decide)]
    rw [List.replicate_succ, List.cons_append, hblank, ih]

theorem trim_stripReturn (s : Text) : trim (stripReturn s) = trim s := by
  unfold stripReturn
  split_ifs with hlast
  · have hs : s.dropLast ++ ['\r'] = s := List.dropLast_append_getLast? '\r' hlast
    have htrim : trim (s.dropLast ++ ['\r']) = trim s.dropLast :=
      trim_append fun c hc => by rw [List.mem_singleton.mp hc]; decide
    rw [← htrim, hs]
  · rfl

theorem stripReturn_append_cons (hc : c ≠ '\r') :
    stripReturn (s ++ c :: t) = s ++ c :: stripReturn t := by
  unfold stripReturn
  cases t with
  | nil => simp [hc]
  | cons d t =>
    rw [List.getLast?_append_of_ne_nil _ (List.cons_ne_nil _ _), List.getLast?_cons_cons]
    split_ifs
    · rw [List.dropLast_append_of_ne_nil (List.cons_ne_nil _ _), List.dropLast_cons_cons]
    · rfl

theorem notMem_of_mem_splitOn (s : Text) : ∀ part ∈ s.splitOn c, c ∉ part := by
  induction s with
  | nil => simp
  | cons x s ih =>
    rw [List.splitOn_cons_eq_if_modifyHead]
    split_ifs with hx
    · exact List.forall_mem_cons.mpr ⟨List.not_mem_nil, ih⟩
    · have hne : c ≠ x := by
        rintro rfl
        simp at hx
      cases hsplit : s.splitOn c with
      | nil => simp
      | cons part parts =>
        rw [hsplit, List.forall_mem_cons] at ih
        rw [List.modifyHead_cons, List.forall_mem_cons, List.mem_cons, not_or]
        exact ⟨⟨hne, ih.1⟩, ih.2⟩

theorem notMem_of_mem_lines (h : t ∈ lines s) : '\n' ∉ t := by
  have hparts := notMem_of_mem_splitOn (c := '\n') s
  simp only [lines, List.mem_append, List.mem_map, List.mem_filter, Option.mem_toList] at h
  obtain ⟨part, hpart, rfl⟩ | ⟨hlast, -⟩ := h
  · have hno := hparts part (List.dropLast_subset _ hpart)
    unfold stripReturn
    split_ifs
    · exact fun hmem => hno (List.dropLast_subset _ hmem)
    · exact hno
  · exact hparts t (List.mem_of_getLast? hlast)

theorem splitOn_unlines {parts : List Text} (h : ∀ part ∈ parts, '\n' ∉ part) :
    (unlines parts).splitOn '\n' = parts ++ [[]] := by
  induction parts with
  | nil => rfl
  | cons part parts ih =>
    rw [List.forall_mem_cons] at h
    have hcons : unlines (part :: parts) = part ++ '\n' :: unlines parts := by simp [unlines]
    rw [hcons, List.splitOn_append_cons_self_of_not_mem h.1, ih h.2, List.cons_append]

theorem lines_unlines {parts : List Text} (h : ∀ part ∈ parts, '\n' ∉ part) :
    lines (unlines parts) = parts.map stripReturn :=
  lines_of_splitOn (splitOn_unlines h)

/-- A field is as good with blanks around it. -/
theorem isField_trim (h : '\n' ∉ s) (hne : trim s ≠ []) : IsField (trim s) where
  trimmed := trim_trim s
  nonempty := hne
  line hmem := h (mem_of_mem_trim hmem)

end Lines

section Pairs

variable {pairs : List (Text × Text)}

theorem entry_of_print {key value : Text} (hkey : ':' ∉ key) :
    (splitOnce ':' (stripReturn (key ++ ": ".toList ++ value))).map
      (fun p => (trim p.1, trim p.2)) = some (trim key, trim value) := by
  have hline : key ++ ": ".toList ++ value = key ++ ':' :: ' ' :: value := by simp
  have hblank : trim (' ' :: value) = trim value := trim_blanks 1 value
  rw [hline, stripReturn_append_cons (by decide), splitOnce_append hkey, Option.map_some,
    trim_stripReturn, hblank]

theorem parseKeyValueOutput_printPairs
    (h : ∀ p ∈ pairs, ':' ∉ p.1 ∧ '\n' ∉ p.1 ∧ '\n' ∉ p.2) :
    parseKeyValueOutput (printPairs pairs) = pairs.map fun p => (trim p.1, trim p.2) := by
  have hlines : ∀ part ∈ pairs.map fun p => p.1 ++ ": ".toList ++ p.2, '\n' ∉ part := by
    intro part hpart
    obtain ⟨p, hp, rfl⟩ := List.mem_map.mp hpart
    obtain ⟨-, hkey, hvalue⟩ := h p hp
    simp [hkey, hvalue]
  rw [parseKeyValueOutput, printPairs, lines_unlines hlines, List.filterMap_map, List.filterMap_map,
    ← List.filterMap_eq_map]
  apply List.filterMap_congr
  intro p hp
  exact entry_of_print (h p hp).1

/-- Every value is what is left of a part of a line. -/
theorem value_of_parse {output key value : Text}
    (h : getValue (parseKeyValueOutput output) key = some value) :
    ∃ s, '\n' ∉ s ∧ value = trim s := by
  have hmem : (key, value) ∈ parseKeyValueOutput output := by
    have hrev : (key, value) ∈ (parseKeyValueOutput output).reverse := by
      obtain ⟨front, back, hsplit, -⟩ := List.lookup_eq_some_iff.mp h
      simp [hsplit]
    exact List.mem_reverse.mp hrev
  obtain ⟨line, hline, hentry⟩ := List.mem_filterMap.mp hmem
  obtain ⟨p, hp, hpair⟩ := Option.map_eq_some_iff.mp hentry
  refine ⟨p.2, ?_, (Prod.mk.inj hpair).2.symm⟩
  have hsplit : line = p.1 ++ ':' :: p.2 := splitOnce_eq_some hp
  intro hmem
  apply notMem_of_mem_lines hline
  rw [hsplit]
  exact List.mem_append_right _ (List.mem_cons_of_mem _ hmem)

theorem isValue_of_normalized {output key value : Text}
    (h : normalizedString (getValue (parseKeyValueOutput output) key) = some value) :
    IsValue value := by
  obtain ⟨found, hfound, hvalue⟩ := Option.bind_eq_some_iff.mp h
  obtain ⟨s, hs, rfl⟩ := value_of_parse hfound
  dsimp only at hvalue
  split_ifs at hvalue with hnone
  obtain rfl := Option.some.inj hvalue
  obtain ⟨hne, hnull⟩ := not_or.mp hnone
  exact ⟨isField_trim (fun hmem => hs (mem_of_mem_trim hmem)) hne, hnull⟩

theorem normalizedString_of_isValue {value : Text} (h : IsValue value) :
    normalizedString (some (trim value)) = some value := by
  have htrim : trim value = value := h.1.trimmed
  have hnot : ¬ (value = [] ∨ value = "(null)".toList) := not_or.mpr ⟨h.1.nonempty, h.2⟩
  simp only [normalizedString, Option.bind_some, htrim, if_neg hnot]

theorem withoutPlus_eq_self {digits : Text} (h : digits.head? ≠ some '+') :
    withoutPlus digits = digits := by
  unfold withoutPlus
  split
  · simp at h
  · rfl

theorem parseU16_toDigits (port : UInt16) :
    parseU16 (trim (Nat.toDigits 10 port.toNat)) = some port := by
  have hdigit : ∀ c ∈ Nat.toDigits 10 port.toNat, c.isDigit := fun c hc =>
    Nat.isDigit_of_mem_toDigits (by decide) (by decide) hc
  have htrim : trim (Nat.toDigits 10 port.toNat) = Nat.toDigits 10 port.toNat :=
    trim_eq_self fun c hc => not_isWhitespace_of_isDigit (hdigit c hc)
  have hlt : port.toNat < 2 ^ 16 := port.toNat_lt
  have hplus : withoutPlus (Nat.toDigits 10 port.toNat) = Nat.toDigits 10 port.toNat := by
    apply withoutPlus_eq_self
    intro hhead
    have hplus := hdigit '+' (List.mem_of_head? hhead)
    revert hplus
    decide
  rw [htrim, parseU16, hplus, Nat.ofDigitChars_ten_toDigits,
    if_pos ⟨Nat.toDigits_ne_nil, List.all_eq_true.mpr hdigit, hlt⟩, UInt16.ofNat_toNat]

end Pairs

section Readers

variable {service : Text} {x read result : ServiceSettings} {q : ProxyQuery}

theorem readProxySetting_printed {setting : ProxySetting}
    (h : ∀ server, setting.server = some server → IsValue server) :
    readProxySetting (printPairs (printedSetting setting)) = setting := by
  obtain ⟨enabled, server, port⟩ := setting
  have hserver : '\n' ∉ server.getD [] := by
    cases server with
    | none => exact List.not_mem_nil
    | some server => exact (h server rfl).1.line
  have hport : '\n' ∉ (port.map fun port => Nat.toDigits 10 port.toNat).getD [] := by
    cases port with
    | none => exact List.not_mem_nil
    | some port =>
      intro hmem
      have hdigit := Nat.isDigit_of_mem_toDigits (b := 10) (by decide) (by decide) hmem
      exact absurd hdigit (by decide)
  have henabled : '\n' ∉ (if enabled then "Yes".toList else "No".toList) := by
    cases enabled <;> decide
  have hpairs : ∀ p ∈ printedSetting ⟨enabled, server, port⟩,
      ':' ∉ p.1 ∧ '\n' ∉ p.1 ∧ '\n' ∉ p.2 := by
    simp only [printedSetting, List.forall_mem_cons]
    refine ⟨⟨by decide, by decide, henabled⟩, ⟨by decide, by decide, hserver⟩,
      ⟨by decide, by decide, hport⟩, by decide, by simp⟩
  have hname : normalizedString (some (trim (server.getD []))) = server := by
    cases server with
    | none => decide
    | some server => exact normalizedString_of_isValue (h server rfl)
  have hnumber : parseU16 (trim ((port.map fun port => Nat.toDigits 10 port.toNat).getD [])) =
      port := by
    cases port with
    | none => decide
    | some port => exact parseU16_toDigits port
  have hflag : boolValue (some (trim (if enabled then "Yes".toList else "No".toList))) =
      enabled := by
    cases enabled <;> decide
  unfold readProxySetting
  rw [parseKeyValueOutput_printPairs hpairs]
  change ProxySetting.mk (boolValue (some (trim _))) (normalizedString (some (trim _)))
    ((some (trim _)).bind parseU16) = _
  rw [hflag, hname, Option.bind_some, hnumber]

theorem readBool_printed (enabled : Bool) :
    readBool (.ok (printPairs [("Auto Proxy Discovery".toList,
      if enabled then "On".toList else "Off".toList)])) = enabled := by
  cases enabled <;> decide

theorem readAutoProxyUrl_printed {setting : AutoProxyUrl}
    (h : ∀ url, setting.url = some url → IsValue url) :
    readAutoProxyUrl (printPairs [("URL".toList, setting.url.getD "(null)".toList),
      ("Enabled".toList, if setting.enabled then "Yes".toList else "No".toList)]) = setting := by
  obtain ⟨enabled, url⟩ := setting
  have hurl : '\n' ∉ url.getD "(null)".toList := by
    cases url with
    | none => decide
    | some url => exact (h url rfl).1.line
  have henabled : '\n' ∉ (if enabled then "Yes".toList else "No".toList) := by
    cases enabled <;> decide
  have hpairs : ∀ p ∈ [("URL".toList, url.getD "(null)".toList),
      ("Enabled".toList, if enabled then "Yes".toList else "No".toList)],
      ':' ∉ p.1 ∧ '\n' ∉ p.1 ∧ '\n' ∉ p.2 := by
    simp only [List.forall_mem_cons]
    refine ⟨⟨by decide, by decide, hurl⟩, ⟨by decide, by decide, henabled⟩, by simp⟩
  have hname : normalizedString (some (trim (url.getD "(null)".toList))) = url := by
    cases url with
    | none => decide
    | some url => exact normalizedString_of_isValue (h url rfl)
  have hflag : boolValue (some (trim (if enabled then "Yes".toList else "No".toList))) =
      enabled := by
    cases enabled <;> decide
  unfold readAutoProxyUrl
  rw [parseKeyValueOutput_printPairs hpairs]
  change AutoProxyUrl.mk (boolValue (some (trim _))) (normalizedString (some (trim _))) = _
  rw [hflag, hname]

theorem containsText_of_prefix {s pattern : Text} (h : pattern <+: s) : containsText s pattern := by
  refine List.any_eq_true.mpr ⟨s, ?_, List.isPrefixOf_iff_prefix.mpr h⟩
  exact (List.mem_tails s s).mpr (List.suffix_refl s)

/-- The note for no domains is none of them. -/
theorem isBypassNote_noDomains (service : Text) : isBypassNote (noDomains service) := by
  have hnote : "there aren".toList <+: noDomainsNote.map Char.toLower := by decide
  have hprefix : "there aren".toList <+: toAsciiLowercase (noDomains service) := by
    rw [toAsciiLowercase, noDomains, List.map_append]
    exact hnote.trans (List.prefix_append _ _)
  rw [isBypassNote, containsText_of_prefix hprefix, Bool.true_or]

/-- The notes of `networksetup` are sentences. -/
theorem trim_note {note : Text} (hfirst : note.head? = some 'T')
    (hlast : note.getLast? = some '.') : trim note = note := by
  apply trimMatches_eq_self
  · intro c hc
    rw [hfirst] at hc
    obtain rfl : 'T' = c := Option.some.inj hc
    decide
  · intro c hc
    rw [hlast] at hc
    obtain rfl : '.' = c := Option.some.inj hc
    decide

theorem readEntries_printed {isNote : Text → Bool} {note : Text} (hline : '\n' ∉ note)
    (hnote : isNote (trim note)) {entries : List Text}
    (h : ∀ entry ∈ entries, IsField entry ∧ isNote entry = false) :
    readEntries isNote (printedEntries note entries) = entries := by
  unfold readEntries printedEntries
  split_ifs with hnil
  · have hlines : ∀ part ∈ [note], '\n' ∉ part := by
      intro part hpart
      obtain rfl := List.mem_singleton.mp hpart
      exact hline
    rw [lines_unlines hlines, hnil, List.filter_eq_nil_iff]
    intro line hmem hkept
    obtain rfl := List.mem_singleton.mp hmem
    rw [trim_stripReturn] at hkept
    exact (of_decide_eq_true hkept).2 hnote
  · have hlines : ∀ part ∈ entries, '\n' ∉ part := fun part hpart => (h part hpart).1.line
    have hsame : (entries.map stripReturn).map trim = entries := by
      rw [List.map_map]
      conv_rhs => rw [← List.map_id entries]
      apply List.map_congr_left
      intro entry hentry
      rw [Function.comp_apply, trim_stripReturn, (h entry hentry).1.trimmed, id]
    rw [lines_unlines hlines, hsame, List.filter_eq_self]
    intro entry hentry
    simp [(h entry hentry).1.nonempty, (h entry hentry).2]

/-- Whatever the output, the entries are read back. -/
theorem isEntry_of_mem_readEntries {isNote : Text → Bool} {output entry : Text}
    (h : entry ∈ readEntries isNote output) : IsField entry ∧ isNote entry = false := by
  obtain ⟨hmem, hkept⟩ := List.mem_filter.mp h
  obtain ⟨line, hline, rfl⟩ := List.mem_map.mp hmem
  obtain ⟨hne, hnote⟩ := of_decide_eq_true hkept
  exact ⟨isField_trim (notMem_of_mem_lines hline) hne, Bool.eq_false_iff.mpr hnote⟩

theorem readBypassDomains_printed (hservice : '\n' ∉ service) {domains : List Text}
    (h : ∀ domain ∈ domains, IsField domain ∧ isBypassNote domain = false) :
    readBypassDomains (printedEntries (noDomains service) domains) = domains := by
  have hline : '\n' ∉ noDomains service := by
    have hfront : '\n' ∉ noDomainsNote := by decide
    simp [noDomains, hservice, hfront]
  have htrim : trim (noDomains service) = noDomains service := by
    apply trim_note rfl
    rw [noDomains, ← List.append_assoc]
    exact List.getLast?_concat
  apply readEntries_printed hline
  · rw [htrim]
    exact isBypassNote_noDomains service
  · exact h

/-- What a reader finds of readable settings is what they are. -/
theorem readQuery_printed (hx : Readable x) (hservice : '\n' ∉ service) (read : ServiceSettings)
    (q : ProxyQuery) :
    readQuery q (runNetworksetup (printed service x q)) read = .ok (q.copy x read) := by
  have hrun : runNetworksetup (printed service x q) = .ok (printedText service x q) := by
    simp [runNetworksetup, printed, fromUtf8Lossy_toUtf8]
  rw [hrun]
  cases q with
  | webProxy => simp only [readQuery, printedText, Except.map, readProxySetting_printed hx.web,
      ProxyQuery.copy]
  | secureWebProxy => simp only [readQuery, printedText, Except.map,
      readProxySetting_printed hx.secureWeb, ProxyQuery.copy]
  | socksProxy => simp only [readQuery, printedText, Except.map, readProxySetting_printed hx.socks,
      ProxyQuery.copy]
  | autoDiscovery => simp only [readQuery, printedText, readBool_printed, ProxyQuery.copy]
  | autoProxyUrl => simp only [readQuery, printedText, Except.map, readAutoProxyUrl_printed hx.url,
      ProxyQuery.copy]
  | bypassDomains => simp only [readQuery, printedText, Except.map,
      readBypassDomains_printed hservice hx.domains, ProxyQuery.copy]

theorem readable_unread : Readable ProxyQuery.unread := by
  constructor
  all_goals simp [ProxyQuery.unread]

/-- Whatever a command prints, what is read of it is readable. -/
theorem Readable.readQuery (h : Readable read) {output : Except AtrError Text}
    (hq : readQuery q output read = .ok result) : Readable result := by
  have hmap {f : Text → ServiceSettings} (hf : output.map f = .ok result) :
      ∃ text, f text = result := by
    cases output with
    | error err => cases hf
    | ok text => exact ⟨text, Except.ok.inj hf⟩
  cases q with
  | webProxy =>
    obtain ⟨text, rfl⟩ := hmap hq
    exact { h with web := fun server hserver => isValue_of_normalized hserver }
  | secureWebProxy =>
    obtain ⟨text, rfl⟩ := hmap hq
    exact { h with secureWeb := fun server hserver => isValue_of_normalized hserver }
  | socksProxy =>
    obtain ⟨text, rfl⟩ := hmap hq
    exact { h with socks := fun server hserver => isValue_of_normalized hserver }
  | autoDiscovery =>
    obtain rfl := Except.ok.inj hq
    exact ⟨h.web, h.secureWeb, h.socks, h.url, h.domains⟩
  | autoProxyUrl =>
    obtain ⟨text, rfl⟩ := hmap hq
    exact { h with url := fun url hurl => isValue_of_normalized hurl }
  | bypassDomains =>
    obtain ⟨text, rfl⟩ := hmap hq
    exact { h with domains := fun domain hdomain => isEntry_of_mem_readEntries hdomain }

theorem readable_of_queries {run : ProxyQuery → Except Text CommandOutput} {qs : List ProxyQuery}
    (hread : Readable read) (h : qs.foldlM
      (fun read q => Macos.readQuery q (runNetworksetup (run q)) read) read = .ok x) :
    Readable x := by
  induction qs generalizing read with
  | nil =>
    obtain rfl := Except.ok.inj h
    exact hread
  | cons q qs ih =>
    rw [List.foldlM_cons] at h
    cases hq : Macos.readQuery q (runNetworksetup (run q)) read with
    | error err =>
      rw [hq] at h
      cases h
    | ok next =>
      rw [hq] at h
      exact ih (hread.readQuery hq) h

theorem makeServiceSnapshot_printed (hx : Readable x) (hservice : '\n' ∉ service) :
    makeServiceSnapshot (printed service x) = .ok x := by
  unfold makeServiceSnapshot
  simp only [readQuery_printed hx hservice]
  exact (List.foldlM_pure (m := Except AtrError)).trans (congrArg _ (ProxyQuery.foldl_all x))

end Readers

section Services

variable {service : Text}

theorem trim_mark (h : IsField service) : trim ('*' :: service) = '*' :: service := by
  apply trimMatches_eq_self
  · intro c hc
    obtain rfl : '*' = c := Option.some.inj hc
    decide
  · intro c hc
    have hlast : service.getLast? = some c := by
      rwa [← List.singleton_append, List.getLast?_append_of_ne_nil _ h.nonempty] at hc
    rw [← h.trimmed] at hlast
    exact trimMatches_getLast hlast

theorem serviceName_line (h : IsServiceName service) (disabled : Bool) :
    serviceName (stripReturn (if disabled then '*' :: service else service)) = some service := by
  cases disabled with
  | true =>
    simp only [if_true, serviceName, trim_stripReturn, trim_mark h.field]
    simp [h.field.trimmed]
  | false =>
    have hnot : ¬ (service = [] ∨ "An asterisk".toList.isPrefixOf service) := by
      rw [h.noNote]
      simp [h.field.nonempty]
    simp only [Bool.false_eq_true, if_false, serviceName, trim_stripReturn, h.field.trimmed,
      if_neg hnot]
    split
    · exact absurd rfl h.noMark
    · rfl

theorem listNetworkServices_printed {services : List Text} (disabled : Text → Bool)
    (h : ∀ service ∈ services, IsServiceName service) :
    listNetworkServices (printedServices disabled services) = services := by
  have hlines : ∀ part ∈ servicesNote ::
      services.map (fun service => if disabled service then '*' :: service else service),
      '\n' ∉ part := by
    rw [List.forall_mem_cons, List.forall_mem_map]
    refine ⟨by decide, fun service hservice => ?_⟩
    have hline := (h service hservice).field.line
    split_ifs
    · simp [hline]
    · exact hline
  have hnote : serviceName (stripReturn servicesNote) = none := by decide
  rw [listNetworkServices, printedServices, lines_unlines hlines, List.map_cons,
    List.filterMap_cons_none hnote, List.map_map, List.filterMap_map]
  calc services.filterMap (serviceName ∘ stripReturn ∘ fun service =>
        if disabled service then '*' :: service else service)
      = services.filterMap some := List.filterMap_congr fun service hservice =>
        serviceName_line (h service hservice) (disabled service)
    _ = services := List.filterMap_some

end Services

/-- The settings that the helper can ever have read, of whatever output, are those that are read
back once they are printed. -/
theorem makeServiceSnapshot_iff (service : Text) (x : ServiceSettings) (hservice : '\n' ∉ service) :
    ((∃ run, makeServiceSnapshot run = .ok x) ↔ Readable x) ∧
      (makeServiceSnapshot (printed service x) = .ok x ↔ Readable x) := by
  have hreadable (run) (h : makeServiceSnapshot run = .ok x) : Readable x :=
    readable_of_queries readable_unread h
  refine ⟨⟨fun h => h.elim hreadable, fun hx => ⟨_, makeServiceSnapshot_printed hx hservice⟩⟩,
    ⟨hreadable _, fun hx => makeServiceSnapshot_printed hx hservice⟩⟩

/-- A domain is read back unless it looks like the note that there are none. -/
theorem makeServiceSnapshot_domains :
    makeServiceSnapshot (printed "Wi-Fi".toList
      { ProxyQuery.unread with bypassDomains := ["*.local".toList] }) =
        .ok { ProxyQuery.unread with bypassDomains := ["*.local".toList] } ∧
      ¬ ∃ run, makeServiceSnapshot run =
        .ok { ProxyQuery.unread with bypassDomains := ["bypass domains".toList] } := by
  constructor
  · apply (makeServiceSnapshot_iff "Wi-Fi".toList _ (by decide)).2.mpr
    refine { readable_unread with domains := fun domain hdomain => ?_ }
    obtain rfl := List.mem_singleton.mp hdomain
    exact ⟨⟨by decide, by decide, by decide⟩, by decide⟩
  · intro hread
    have hreadable := (makeServiceSnapshot_iff "Wi-Fi".toList _ (by decide)).1.mp hread
    have hnote := (hreadable.domains _ List.mem_cons_self).2
    revert hnote
    decide

end NulConnect.Macos
