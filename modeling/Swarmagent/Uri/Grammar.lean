import Swarmagent.Machine.Lines
import Swarmagent.Uri.Pattern

/-!
# URIs

The URIs that have an authority, `scheme://authority/path?query#fragment`: the rules of the grammar,
and a URI as what it is made of.

What the grammar accepts is what a URI is written as (`mem_iff`), and a text is that of one URI at
most (`text_injective`), as each part stops at a character which is not in it.  In a host this is
the colon, so that an address with colons has to stand in brackets.  What is not in brackets has one
colon at most, that in front of the port (`count_colon_le`).
-/

open RegularExpression Machine

/-! ## Rules -/

namespace Uri.Grammar

/-- The characters from one code to another. -/
def range (first last : ℕ) : RegularExpression Char :=
  anyOf ((List.range' first (last + 1 - first)).map Char.ofNat)

def alpha : RegularExpression Char := range 0x41 0x5A + range 0x61 0x7A

def digit : RegularExpression Char := range 0x30 0x39

def hexdig : RegularExpression Char := digit + range 0x41 0x46 + range 0x61 0x66

def unreserved : RegularExpression Char := alpha + digit + anyOf ['-', '.', '_', '~']

/-- The first range is that of `&'()*+,`. -/
def subDelims : RegularExpression Char := range 0x26 0x2C + anyOf ['!', '$', ';', '=']

def pctEncoded : RegularExpression Char := char '%' * hexdig * hexdig

def pchar : RegularExpression Char := unreserved + pctEncoded + subDelims + anyOf [':', '@']

def scheme : RegularExpression Char := alpha * star (alpha + digit + anyOf ['+', '-', '.'])

def userinfo : RegularExpression Char := star (unreserved + pctEncoded + subDelims + char ':')

/-- A number from 0 to 255. -/
def decOctet : RegularExpression Char :=
  digit + range 0x31 0x39 * digit + char '1' * digit ^ 2 +
    char '2' * range 0x30 0x34 * digit + word ['2', '5'] * range 0x30 0x35

def ipv4address : RegularExpression Char :=
  decOctet * char '.' * decOctet * char '.' * decOctet * char '.' * decOctet

/-- 16 bits. -/
def h16 : RegularExpression Char := hexdig * upTo 3 hexdig

/-- The last 32 bits. -/
def ls32 : RegularExpression Char := h16 * char ':' * h16 + ipv4address

/-- Eight groups of 16 bits, or less with `::` for groups of zeros. -/
def ipv6address : RegularExpression Char :=
  (h16 * char ':') ^ 6 * ls32 +
  word [':', ':'] * (h16 * char ':') ^ 5 * ls32 +
  upTo 1 h16 * word [':', ':'] * (h16 * char ':') ^ 4 * ls32 +
  upTo 1 (upTo 1 (h16 * char ':') * h16) * word [':', ':'] * (h16 * char ':') ^ 3 * ls32 +
  upTo 1 (upTo 2 (h16 * char ':') * h16) * word [':', ':'] * (h16 * char ':') ^ 2 * ls32 +
  upTo 1 (upTo 3 (h16 * char ':') * h16) * word [':', ':'] * (h16 * char ':') * ls32 +
  upTo 1 (upTo 4 (h16 * char ':') * h16) * word [':', ':'] * ls32 +
  upTo 1 (upTo 5 (h16 * char ':') * h16) * word [':', ':'] * h16 +
  upTo 1 (upTo 6 (h16 * char ':') * h16) * word [':', ':']

def ipvFuture : RegularExpression Char :=
  anyOf ['v', 'V'] * (hexdig * star hexdig) * char '.' *
    ((unreserved + subDelims + char ':') * star (unreserved + subDelims + char ':'))

def ipLiteral : RegularExpression Char := char '[' * (ipv6address + ipvFuture) * char ']'

def regName : RegularExpression Char := star (unreserved + pctEncoded + subDelims)

def host : RegularExpression Char := ipLiteral + ipv4address + regName

def port : RegularExpression Char := star digit

def authority : RegularExpression Char :=
  upTo 1 (userinfo * char '@') * host * upTo 1 (char ':' * port)

def segment : RegularExpression Char := star pchar

def pathAbempty : RegularExpression Char := star (char '/' * segment)

def query : RegularExpression Char := star (pchar + anyOf ['/', '?'])

def fragment : RegularExpression Char := star (pchar + anyOf ['/', '?'])

/-- A URI that has an authority. -/
def uri : RegularExpression Char :=
  scheme * (char ':' * (char '/' * (char '/' * (authority *
    (pathAbempty * (upTo 1 (char '?' * query) * upTo 1 (char '#' * fragment)))))))

end Uri.Grammar

/-! ## Parts -/

namespace Uri

/-- A text that matches a rule. -/
abbrev TextOf (P : RegularExpression Char) : Type := {w : List Char // w ∈ P.matches'}

/-- A text with a delimiter in front, if there is one. -/
def before (c : Char) {P : RegularExpression Char} (w : Option (TextOf P)) : List Char :=
  w.elim [] fun w ↦ c :: w.1

/-- A text with a delimiter behind it, if there is one. -/
def behind (c : Char) {P : RegularExpression Char} (w : Option (TextOf P)) : List Char :=
  w.elim [] fun w ↦ w.1 ++ [c]

inductive Host where
  /-- An address in brackets. -/
  | ipLiteral (addr : TextOf (Grammar.ipv6address + Grammar.ipvFuture))
  /-- An IPv4 address or a name. -/
  | name (w : TextOf (Grammar.ipv4address + Grammar.regName))

namespace Host

def text : Host → List Char
  | .ipLiteral addr => '[' :: (addr.1 ++ [']'])
  | .name w => w.1

/-- The address or the name, without brackets. -/
def address : Host → List Char
  | .ipLiteral addr => addr.1
  | .name w => w.1

end Host

structure Authority where
  userinfo : Option (TextOf Grammar.userinfo)
  host : Host
  port : Option (TextOf Grammar.port)

def Authority.text (a : Authority) : List Char :=
  behind '@' a.userinfo ++ (a.host.text ++ before ':' a.port)

end Uri

structure Uri where
  scheme : Uri.TextOf Uri.Grammar.scheme
  authority : Uri.Authority
  path : Uri.TextOf Uri.Grammar.pathAbempty
  query : Option (Uri.TextOf Uri.Grammar.query)
  fragment : Option (Uri.TextOf Uri.Grammar.fragment)

namespace Uri

/-- What follows the authority. -/
def tail (u : Uri) : List Char := u.path.1 ++ (before '?' u.query ++ before '#' u.fragment)

def text (u : Uri) : List Char :=
  u.scheme.1 ++ ':' :: '/' :: '/' :: (u.authority.text ++ u.tail)

/-! ## Delimiters -/

section Delimiters

variable {P : RegularExpression Char} {c : Char} {stops : List Char}

/-- None of the characters is in the text. -/
def Free (stops l : List Char) : Prop := ∀ x ∈ l, x ∉ stops

/-- The text is empty or begins with one of the characters. -/
def Stops (stops l : List Char) : Prop := ∀ x ∈ l.head?, x ∈ stops

theorem TextOf.free (w : TextOf P) (h : P.all (fun x ↦ x ∉ stops) = true) : Free stops w.1 :=
  fun x hx ↦ of_decide_eq_true (forall_mem_of_all h w.2 x hx)

theorem Free.notMem {l : List Char} (h : Free [c] l) : c ∉ l :=
  fun hc ↦ h c hc List.mem_cons_self

theorem Free.append {l l' : List Char} (hl : Free stops l) (hl' : Free stops l') :
    Free stops (l ++ l') :=
  fun x hx ↦ (List.mem_append.mp hx).elim (hl x) (hl' x)

theorem free_before (hc : c ∉ stops) (h : P.all (fun x ↦ x ∉ stops) = true)
    (w : Option (TextOf P)) : Free stops (before c w) := by
  cases w with
  | none => exact fun x hx ↦ nomatch hx
  | some w =>
      intro x hx
      rcases List.mem_cons.mp hx with rfl | hx
      · exact hc
      · exact w.free h x hx

theorem append_inj_of_free {l l' rest rest' : List Char} (hl : Free stops l) (hl' : Free stops l')
    (hrest : Stops stops rest) (hrest' : Stops stops rest') (h : l ++ rest = l' ++ rest') :
    l = l' ∧ rest = rest' :=
  append_inj_of_stop hl hl' (fun x hx ↦ not_not_intro (hrest x hx))
    (fun x hx ↦ not_not_intro (hrest' x hx)) h

theorem stops_cons (h : c ∈ stops) (l : List Char) : Stops stops (c :: l) := by
  rintro x hx
  obtain rfl := Option.some.inj hx
  exact h

theorem Stops.append {l l' : List Char} (hl : Stops stops l) (hl' : Stops stops l') :
    Stops stops (l ++ l') := by
  cases l with
  | nil => exact hl'
  | cons c l => exact hl

theorem stops_before (h : c ∈ stops) (w : Option (TextOf P)) : Stops stops (before c w) := by
  cases w with
  | none => exact fun x hx ↦ nomatch hx
  | some w => exact stops_cons h w.1

theorem before_inj {w w' : Option (TextOf P)} (h : before c w = before c w') : w = w' := by
  cases w with
  | none =>
      cases w' with
      | none => rfl
      | some w' => cases h
  | some w =>
      cases w' with
      | none => cases h
      | some w' => exact congrArg some (Subtype.ext (List.cons.inj h).2)

/-- A path begins with a slash, unless it is empty. -/
theorem stops_path (h : '/' ∈ stops) (path : TextOf Grammar.pathAbempty) : Stops stops path.1 := by
  obtain ⟨_, segments, rfl, hsegments⟩ := path
  cases segments with
  | nil => exact fun x hx ↦ nomatch hx
  | cons s segments =>
      obtain ⟨_, rfl, segment, -, rfl⟩ :=
        Language.mem_mul.mp (hsegments s List.mem_cons_self)
      exact stops_cons h (segment ++ segments.flatten)

theorem stops_tail (u : Uri) : Stops ['/', '?', '#'] u.tail :=
  (stops_path (by decide) u.path).append
    ((stops_before (by decide) u.query).append (stops_before (by decide) u.fragment))

end Delimiters

/-! ## The parts of an authority -/

section Parts

variable {P : RegularExpression Char} {c : Char} {w : List Char}

theorem mem_upTo_one_iff : w ∈ (upTo 1 P).matches' ↔ w = [] ∨ w ∈ P.matches' := by
  rw [upTo, matches'_pow, pow_one]
  rfl

theorem mem_char_mul_iff : w ∈ (char c * P).matches' ↔ ∃ v ∈ P.matches', c :: v = w := by
  constructor
  · intro hw
    obtain ⟨_, rfl, v, hv, rfl⟩ := Language.mem_mul.mp hw
    exact ⟨v, hv, rfl⟩
  · rintro ⟨v, hv, rfl⟩
    exact Language.append_mem_mul (a := [c]) rfl hv

/-- A segment of a path, of letters which do not have to be escaped. -/
theorem slash_mem (h : ∀ x ∈ w, [x] ∈ Grammar.pchar.matches') :
    '/' :: w ∈ (char '/' * Grammar.segment).matches' :=
  mem_char_mul_iff.mpr ⟨w, mem_star_of_forall h, rfl⟩

theorem mem_before_iff :
    w ∈ (upTo 1 (char c * P)).matches' ↔ ∃ v : Option (TextOf P), before c v = w := by
  rw [mem_upTo_one_iff, mem_char_mul_iff]
  constructor
  · rintro (rfl | ⟨v, hv, rfl⟩)
    · exact ⟨none, rfl⟩
    · exact ⟨some ⟨v, hv⟩, rfl⟩
  · rintro ⟨_ | v, rfl⟩
    · exact Or.inl rfl
    · exact Or.inr ⟨v.1, v.2, rfl⟩

theorem mem_behind_iff :
    w ∈ (upTo 1 (P * char c)).matches' ↔ ∃ v : Option (TextOf P), behind c v = w := by
  rw [mem_upTo_one_iff]
  constructor
  · rintro (rfl | hw)
    · exact ⟨none, rfl⟩
    · obtain ⟨v, hv, _, rfl, rfl⟩ := Language.mem_mul.mp hw
      exact ⟨some ⟨v, hv⟩, rfl⟩
  · rintro ⟨_ | v, rfl⟩
    · exact Or.inl rfl
    · exact Or.inr (Language.append_mem_mul (b := [c]) v.2 rfl)

theorem Host.mem_iff : w ∈ Grammar.host.matches' ↔ ∃ h : Host, h.text = w := by
  constructor
  · rintro ((hw | hw) | hw)
    · obtain ⟨_, hopen, _, rfl, rfl⟩ := Language.mem_mul.mp hw
      obtain ⟨addr, haddr, rfl⟩ := mem_char_mul_iff.mp hopen
      exact ⟨.ipLiteral ⟨addr, haddr⟩, rfl⟩
    · exact ⟨.name ⟨w, Or.inl hw⟩, rfl⟩
    · exact ⟨.name ⟨w, Or.inr hw⟩, rfl⟩
  · rintro ⟨addr | ⟨w, hw | hw⟩, rfl⟩
    · have hopen : '[' :: addr.1 ∈
          (char '[' * (Grammar.ipv6address + Grammar.ipvFuture)).matches' :=
        mem_char_mul_iff.mpr ⟨addr.1, addr.2, rfl⟩
      exact Or.inl (Or.inl (Language.append_mem_mul (b := [']']) hopen rfl))
    · exact Or.inl (Or.inr hw)
    · exact Or.inr hw

theorem Authority.mem_iff : w ∈ Grammar.authority.matches' ↔ ∃ a : Authority, a.text = w := by
  constructor
  · intro hw
    obtain ⟨_, hfront, _, hport, rfl⟩ := Language.mem_mul.mp hw
    obtain ⟨_, huserinfo, _, hhost, rfl⟩ := Language.mem_mul.mp hfront
    obtain ⟨userinfo, rfl⟩ := mem_behind_iff.mp huserinfo
    obtain ⟨host, rfl⟩ := Host.mem_iff.mp hhost
    obtain ⟨port, rfl⟩ := mem_before_iff.mp hport
    exact ⟨⟨userinfo, host, port⟩, (List.append_assoc _ _ _).symm⟩
  · rintro ⟨⟨userinfo, host, port⟩, rfl⟩
    rw [Authority.text, ← List.append_assoc]
    exact Language.append_mem_mul (Language.append_mem_mul (mem_behind_iff.mpr ⟨userinfo, rfl⟩)
      (Host.mem_iff.mpr ⟨host, rfl⟩)) (mem_before_iff.mpr ⟨port, rfl⟩)

/-- **Reading.**  What the grammar accepts is what a URI is written as. -/
theorem mem_iff : w ∈ Grammar.uri.matches' ↔ ∃ u : Uri, u.text = w := by
  constructor
  · intro hw
    obtain ⟨scheme, hscheme, _, hcolon, rfl⟩ := Language.mem_mul.mp hw
    obtain ⟨_, hslash, rfl⟩ := mem_char_mul_iff.mp hcolon
    obtain ⟨_, hslash', rfl⟩ := mem_char_mul_iff.mp hslash
    obtain ⟨_, hauth, rfl⟩ := mem_char_mul_iff.mp hslash'
    obtain ⟨_, hauthority, _, htail, rfl⟩ := Language.mem_mul.mp hauth
    obtain ⟨path, hpath, _, hback, rfl⟩ := Language.mem_mul.mp htail
    obtain ⟨_, hquery, _, hfragment, rfl⟩ := Language.mem_mul.mp hback
    obtain ⟨authority, rfl⟩ := Authority.mem_iff.mp hauthority
    obtain ⟨query, rfl⟩ := mem_before_iff.mp hquery
    obtain ⟨fragment, rfl⟩ := mem_before_iff.mp hfragment
    exact ⟨⟨⟨scheme, hscheme⟩, authority, ⟨path, hpath⟩, query, fragment⟩, rfl⟩
  · rintro ⟨⟨scheme, authority, path, query, fragment⟩, rfl⟩
    have htail : path.1 ++ (before '?' query ++ before '#' fragment) ∈ _ :=
      Language.append_mem_mul path.2 (Language.append_mem_mul (mem_before_iff.mpr ⟨query, rfl⟩)
        (mem_before_iff.mpr ⟨fragment, rfl⟩))
    have hauth := Language.append_mem_mul (Authority.mem_iff.mpr ⟨authority, rfl⟩) htail
    refine Language.append_mem_mul scheme.2 (mem_char_mul_iff.mpr ⟨_, ?_, rfl⟩)
    exact mem_char_mul_iff.mpr ⟨_, mem_char_mul_iff.mpr ⟨_, hauth, rfl⟩, rfl⟩

end Parts

/-! ## One reading -/

section HostPort

variable {host host' : Host} {port port' : Option (TextOf Grammar.port)}

theorem Host.free (host : Host) : Free ['@'] host.text :=
  TextOf.free ⟨host.text, Host.mem_iff.mpr ⟨host, rfl⟩⟩ (by decide)

theorem free_hostPort : Free ['@'] (host.text ++ before ':' port) :=
  host.free.append (free_before (by decide) (by decide) port)

theorem free_name (w : TextOf (Grammar.ipv4address + Grammar.regName)) :
    Free ['['] (w.1 ++ before ':' port) :=
  (w.free (by decide)).append (free_before (by decide) (by decide) port)

/-- A host is read as an IP literal if it begins with a bracket. -/
theorem hostPort_inj (h : host.text ++ before ':' port = host'.text ++ before ':' port') :
    host = host' ∧ port = port' := by
  have hclose : ∀ addr : TextOf (Grammar.ipv6address + Grammar.ipvFuture), Free [']'] addr.1 :=
    fun addr ↦ addr.free (by decide)
  have hcolon : ∀ w : TextOf (Grammar.ipv4address + Grammar.regName), Free [':'] w.1 :=
    fun w ↦ w.free (by decide)
  cases host with
  | ipLiteral addr =>
      cases host' with
      | ipLiteral addr' =>
          have htail : addr.1 ++ [']'] ++ before ':' port = addr'.1 ++ [']'] ++ before ':' port' :=
            (List.cons.inj h).2
          rw [List.append_assoc, List.append_assoc] at htail
          obtain ⟨haddr, hrest⟩ := append_inj_of_free (hclose addr) (hclose addr')
            (stops_cons List.mem_cons_self _) (stops_cons List.mem_cons_self _) htail
          exact ⟨congrArg Host.ipLiteral (Subtype.ext haddr), before_inj (List.cons.inj hrest).2⟩
      | name w' =>
          have hopen : '[' ∈ w'.1 ++ before ':' port' := h ▸ List.mem_cons_self
          exact absurd hopen (free_name w').notMem
  | name w =>
      cases host' with
      | ipLiteral addr' =>
          have hopen : '[' ∈ w.1 ++ before ':' port := h.symm ▸ List.mem_cons_self
          exact absurd hopen (free_name w).notMem
      | name w' =>
          obtain ⟨hname, hport⟩ := append_inj_of_free (hcolon w) (hcolon w')
            (stops_before List.mem_cons_self port) (stops_before List.mem_cons_self port') h
          exact ⟨congrArg Host.name (Subtype.ext hname), before_inj hport⟩

end HostPort

namespace Authority

theorem text_injective : Function.Injective Authority.text := by
  rintro ⟨userinfo, host, port⟩ ⟨userinfo', host', port'⟩ h
  have hat : ∀ w : TextOf Grammar.userinfo, Free ['@'] w.1 := fun w ↦ w.free (by decide)
  cases userinfo with
  | none =>
      cases userinfo' with
      | none =>
          obtain ⟨rfl, rfl⟩ := hostPort_inj h
          rfl
      | some w' =>
          have hmem : '@' ∈ host.text ++ before ':' port := by
            rw [show host.text ++ before ':' port = _ from h]
            exact List.mem_append_left _ (List.mem_append_right w'.1 List.mem_cons_self)
          exact absurd hmem free_hostPort.notMem
  | some w =>
      cases userinfo' with
      | none =>
          have hmem : '@' ∈ host'.text ++ before ':' port' := by
            rw [show host'.text ++ before ':' port' = _ from h.symm]
            exact List.mem_append_left _ (List.mem_append_right w.1 List.mem_cons_self)
          exact absurd hmem free_hostPort.notMem
      | some w' =>
          have h : w.1 ++ ['@'] ++ (host.text ++ before ':' port) =
            w'.1 ++ ['@'] ++ (host'.text ++ before ':' port') := h
          rw [List.append_assoc, List.append_assoc] at h
          obtain ⟨huserinfo, hrest⟩ := append_inj_of_free (hat w) (hat w')
            (stops_cons List.mem_cons_self _) (stops_cons List.mem_cons_self _) h
          obtain ⟨rfl, rfl⟩ := hostPort_inj (List.cons.inj hrest).2
          obtain rfl := Subtype.ext huserinfo
          rfl

theorem free (a : Authority) : Free ['/', '?', '#'] a.text :=
  TextOf.free ⟨a.text, mem_iff.mpr ⟨a, rfl⟩⟩ (by decide)

/-- Without brackets, a colon is a delimiter. -/
theorem count_colon_le (a : Authority) (hat : '@' ∉ a.text) (hopen : '[' ∉ a.text) :
    a.text.count ':' ≤ 1 := by
  obtain ⟨_ | w, host, port⟩ := a
  · cases host with
    | ipLiteral addr => exact absurd List.mem_cons_self hopen
    | name w =>
        have hname : w.1.count ':' = 0 :=
          List.count_eq_zero.mpr (w.free (by decide)).notMem
        have hport : (before ':' port).count ':' ≤ 1 := by
          cases port with
          | none => exact Nat.zero_le 1
          | some p =>
              show (':' :: p.1).count ':' ≤ 1
              rw [List.count_cons_self, List.count_eq_zero.mpr (p.free (by decide)).notMem]
        show (w.1 ++ before ':' port).count ':' ≤ 1
        rw [List.count_append, hname, Nat.zero_add]
        exact hport
  · have hmem : '@' ∈ w.1 ++ ['@'] := List.mem_append_right w.1 List.mem_cons_self
    exact absurd (List.mem_append_left _ hmem) hat

end Authority

section Reading

variable {u u' : Uri}

/-- The authority begins behind the slashes and ends where the path, the query or the fragment
begins. -/
theorem parts_of_text {scheme auth rest : List Char} (hscheme : Free [':'] scheme)
    (hauth : Free ['/', '?', '#'] auth) (hrest : Stops ['/', '?', '#'] rest)
    (h : u.text = scheme ++ ':' :: '/' :: '/' :: (auth ++ rest)) :
    u.scheme.1 = scheme ∧ u.authority.text = auth ∧ u.tail = rest := by
  obtain ⟨hs, hbehind⟩ := append_inj_of_free (u.scheme.free (by decide)) hscheme
    (stops_cons List.mem_cons_self _) (stops_cons List.mem_cons_self _) h
  have hslashes : u.authority.text ++ u.tail = auth ++ rest :=
    (List.cons.inj (List.cons.inj (List.cons.inj hbehind).2).2).2
  obtain ⟨ha, ht⟩ := append_inj_of_free u.authority.free hauth u.stops_tail hrest hslashes
  exact ⟨hs, ha, ht⟩

theorem tail_inj (h : u.tail = u'.tail) :
    u.path = u'.path ∧ u.query = u'.query ∧ u.fragment = u'.fragment := by
  have hstops : ∀ u : Uri, Stops ['?', '#'] (before '?' u.query ++ before '#' u.fragment) :=
    fun u ↦ (stops_before (by decide) u.query).append (stops_before (by decide) u.fragment)
  have hfree : ∀ u : Uri, Free ['#'] (before '?' u.query) :=
    fun u ↦ free_before (by decide) (by decide) u.query
  obtain ⟨hpath, h⟩ := append_inj_of_free (u.path.free (by decide))
    (u'.path.free (by decide)) (hstops u) (hstops u') h
  obtain ⟨hquery, h⟩ := append_inj_of_free (hfree u) (hfree u')
    (stops_before List.mem_cons_self u.fragment) (stops_before List.mem_cons_self u'.fragment) h
  exact ⟨Subtype.ext hpath, before_inj hquery, before_inj h⟩

/-- **One reading.**  A text is that of one URI at most. -/
theorem text_injective : Function.Injective Uri.text := by
  intro u u' h
  obtain ⟨hscheme, hauth, htail⟩ :=
    parts_of_text (u'.scheme.free (by decide)) u'.authority.free u'.stops_tail h
  obtain ⟨hpath, hquery, hfragment⟩ := tail_inj htail
  obtain ⟨scheme, authority, path, query, fragment⟩ := u
  obtain rfl := Subtype.ext hscheme
  obtain rfl := Authority.text_injective hauth
  obtain rfl := hpath
  obtain rfl := hquery
  obtain rfl := hfragment
  rfl

end Reading

end Uri
