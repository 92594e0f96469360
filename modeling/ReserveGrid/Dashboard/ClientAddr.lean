import Mathlib.Data.List.Forall2
import ReserveGrid.ApiGateway.Auth
import ReserveGrid.Support.IpAddr

/-!
# Which client a request came from

The dashboard counts requests against the client they came from. Behind trusted
proxies that is the rightmost address of `x-forwarded-for` that is not one of
them. The lines of the header are read from the left first, and one that is not
printable ends the reading without an answer, so the request is counted against
the proxy that delivered it.
-/

namespace ReserveGrid.Dashboard

open Support
open ApiGateway (isVisibleAscii)

/-- The headers of a request, with names in lower case. -/
abbrev HeaderMap := List (String × Bytes)

/-- The values of a header, in the order they came. -/
def getAll (headers : HeaderMap) (name : String) : List Bytes :=
  (headers.filter fun h => h.1 == name).map Prod.snd

/-- The header that names the client. -/
inductive ClientIpHeader where
  | cfConnectingIp
  | xForwardedFor
  deriving DecidableEq, Repr

structure RateLimitConfig where
  trustedProxies : List IpAddr
  clientIpHeader : Option ClientIpHeader

/-- The trusted proxies, in canonical form, and the header they set. -/
structure ClientAddr where
  trustedProxies : List IpAddr
  header : Option ClientIpHeader

/-- A header value as text. -/
def toStr (value : Bytes) : Option Bytes :=
  if value.all isVisibleAscii then some value else none

/-- The white space a printable value can have. -/
def isBlank (b : UInt8) : Bool := b == 32 || b == 9

def trim (text : Bytes) : Bytes :=
  ((text.dropWhile isBlank).reverse.dropWhile isBlank).reverse

/-- The comma-separated entries of all lines, if every line is printable. -/
def entriesOf : List Bytes → Option (List Bytes)
  | [] => some []
  | line :: lines => do
      let text ← toStr line
      let entries ← entriesOf lines
      return text.splitOn 44 ++ entries

namespace ClientAddr

def fromConfig (cfg : RateLimitConfig) : ClientAddr where
  trustedProxies := cfg.trustedProxies.map IpAddr.toCanonical
  header := cfg.clientIpHeader

/-- Walk the entries, the rightmost one first, past the trusted proxies. -/
def walk (self : ClientAddr) : List Bytes → Option IpAddr
  | [] => none
  | entry :: entries =>
      match IpAddr.parse (trim entry) with
      | none => none
      | some ip =>
          if ip.toCanonical ∈ self.trustedProxies then self.walk entries
          else some ip.toCanonical

def rightmostUntrusted (self : ClientAddr) (headers : HeaderMap) :
    Option IpAddr := do
  let entries ← entriesOf (getAll headers "x-forwarded-for")
  self.walk entries.reverse

/-- The client's address: the peer, or what a trusted peer's header names. -/
def resolve (self : ClientAddr) (peer : IpAddr) (headers : HeaderMap) :
    IpAddr :=
  match self.header with
  | none => peer
  | some header =>
      if peer.toCanonical ∉ self.trustedProxies then peer
      else
        let named :=
          match header with
          | .cfConnectingIp =>
              (headers.lookup "cf-connecting-ip").bind toStr |>.bind
                fun text => IpAddr.parse (trim text)
          | .xForwardedFor => self.rightmostUntrusted headers
        match named with
        | some ip => ip.toCanonical
        | none => peer

end ClientAddr

/-! ## Proxies -/

/-- Where a proxy puts the address it appends: on a line of its own, at the end
of the last line, or at the end of all lines joined into one. -/
inductive Placement where
  | newLine
  | lastLine
  | joined
  deriving DecidableEq

/-- A proxy: its own address, the text it writes for the peer it sees, the
blanks it puts after a comma, and where it puts the text. -/
structure Hop where
  proxy : IpAddr
  text : Bytes
  blanks : Bytes
  placement : Placement

namespace Hop

/-- The text appended to a line. -/
def onto (hop : Hop) (line : Bytes) : Bytes :=
  line ++ 44 :: (hop.blanks ++ hop.text)

/-- The lines of `x-forwarded-for` that the proxy sends on. -/
def append (hop : Hop) (lines : List Bytes) : List Bytes :=
  match hop.placement, lines.getLast? with
  | .lastLine, some last => lines.dropLast ++ [hop.onto last]
  | .joined, some _ =>
      [hop.onto (List.intercalate (44 :: hop.blanks) lines)]
  | _, _ => lines ++ [hop.text]

/-- The headers that the proxy sends on. -/
def forward (hop : Hop) (headers : HeaderMap) : HeaderMap :=
  (headers.filter fun h => h.1 != "x-forwarded-for") ++
    (hop.append (getAll headers "x-forwarded-for")).map
      fun line => ("x-forwarded-for", line)

end Hop

/-- An entry that stands for an address, up to the canonical form. -/
def Names (entry : Bytes) (ip : IpAddr) : Prop :=
  (IpAddr.parse (trim entry)).map IpAddr.toCanonical = some ip.toCanonical

/-- A proxy that writes the peer it sees, as a printable address. -/
structure Hop.Honest (hop : Hop) (peer : IpAddr) : Prop where
  names : Names hop.text peer
  printable : hop.text.all isVisibleAscii = true
  single : 44 ∉ hop.text
  blanks : hop.blanks.all isBlank = true

/-- Every proxy of a chain appends the peer it sees: the client for the first
one, the proxy before it for the others. -/
def HonestChain (peer : IpAddr) : List Hop → Prop
  | [] => True
  | hop :: hops => hop.Honest peer ∧ HonestChain hop.proxy hops

/-- The peer the dashboard sees. -/
def lastPeer (client : IpAddr) (hops : List Hop) : IpAddr :=
  (hops.getLast?.map Hop.proxy).getD client

/-- The headers the dashboard sees. -/
def delivered (hops : List Hop) (headers : HeaderMap) : HeaderMap :=
  hops.foldl (fun headers hop => hop.forward headers) headers

/-! ## Reading the lines -/

/-- Every line of the list is printable. -/
def Printable (lines : List Bytes) : Prop :=
  ∀ line ∈ lines, line.all isVisibleAscii = true

instance (lines : List Bytes) : Decidable (Printable lines) :=
  inferInstanceAs (Decidable (∀ line ∈ lines, _ = true))

/-- The comma-separated entries of all lines. -/
def entries (lines : List Bytes) : List Bytes :=
  lines.flatMap fun line => line.splitOn 44

theorem entriesOf_of_printable {lines : List Bytes} (h : Printable lines) :
    entriesOf lines = some (entries lines) := by
  induction lines with
  | nil => rfl
  | cons line lines ih =>
      have hline := h line List.mem_cons_self
      have hrest := ih fun l hl => h l (List.mem_cons_of_mem _ hl)
      simp [entriesOf, toStr, hline, hrest, entries]

theorem entriesOf_of_not_printable {lines : List Bytes}
    (h : ¬ Printable lines) :
    entriesOf lines = none := by
  induction lines with
  | nil => exact absurd (fun l hl => absurd hl List.not_mem_nil) h
  | cons line lines ih =>
      by_cases hline : line.all isVisibleAscii = true
      · have hrest : ¬ Printable lines := by
          intro hall
          apply h
          intro l hl
          rcases List.mem_cons.mp hl with rfl | hl
          · exact hline
          · exact hall l hl
        simp [entriesOf, toStr, hline, ih hrest]
      · simp [entriesOf, toStr, hline]

theorem trim_blanks_append {blanks : Bytes} (h : blanks.all isBlank = true)
    (text : Bytes) :
    trim (blanks ++ text) = trim text := by
  have hdrop : (blanks ++ text).dropWhile isBlank = text.dropWhile isBlank := by
    induction blanks with
    | nil => rfl
    | cons b blanks ih =>
        rw [List.all_cons, Bool.and_eq_true] at h
        rw [List.cons_append, List.dropWhile_cons_of_pos h.1]
        exact ih h.2
  rw [trim, trim, hdrop]

/-- Blanks before a text go to its first entry, and trimming drops them. -/
theorem map_trim_splitOn_blanks {blanks : Bytes}
    (h : blanks.all isBlank = true) (text : Bytes) :
    ((blanks ++ text).splitOn 44).map trim = (text.splitOn 44).map trim := by
  induction blanks with
  | nil => rfl
  | cons b blanks ih =>
      rw [List.all_cons, Bool.and_eq_true] at h
      have hb : (b == 44) = false := by
        cases hcomma : b == 44 with
        | false => rfl
        | true =>
            rw [beq_iff_eq.mp hcomma] at h
            exact absurd h.1 (by decide)
      have htrim : ∀ e, trim (b :: e) = trim e :=
        fun e => trim_blanks_append (show [b].all isBlank = true by simp [h.1]) e
      rw [List.cons_append, List.splitOn_cons_eq_if_modifyHead, hb, ← ih h.2]
      cases (blanks ++ text).splitOn 44 with
      | nil => rfl
      | cons e es => simp [htrim]

/-- Joining lines changes their entries by blanks only. -/
theorem map_trim_splitOn_intercalate {blanks : Bytes}
    (h : blanks.all isBlank = true) {lines : List Bytes} (hne : lines ≠ []) :
    ((List.intercalate (44 :: blanks) lines).splitOn 44).map trim =
      (entries lines).map trim := by
  induction lines with
  | nil => exact absurd rfl hne
  | cons line lines ih =>
      cases lines with
      | nil => simp [entries]
      | cons next lines =>
          have hrest := ih (List.cons_ne_nil _ _)
          rw [List.intercalate_cons_cons, List.append_assoc, List.cons_append,
            List.splitOn_append_cons_self, List.map_append,
            map_trim_splitOn_blanks h, hrest]
          simp [entries]

/-- A proxy adds one entry at the end. -/
theorem map_trim_entries_append {hop : Hop} {peer : IpAddr}
    (h : hop.Honest peer) (lines : List Bytes) :
    (entries (hop.append lines)).map trim =
      (entries lines).map trim ++ [trim hop.text] := by
  have htext : hop.text.splitOn 44 = [hop.text] :=
    List.splitOn_eq_singleton h.single
  have honto : ∀ line, ((hop.onto line).splitOn 44).map trim =
      (line.splitOn 44).map trim ++ [trim hop.text] := by
    intro line
    rw [Hop.onto, List.splitOn_append_cons_self, List.map_append,
      map_trim_splitOn_blanks h.blanks, htext]
    rfl
  have hnew : (entries (lines ++ [hop.text])).map trim =
      (entries lines).map trim ++ [trim hop.text] := by
    simp [entries, htext]
  unfold Hop.append
  cases hlast : lines.getLast? with
  | none => cases hop.placement <;> exact hnew
  | some last =>
      obtain ⟨front, rfl⟩ := List.getLast?_eq_some_iff.mp hlast
      cases hop.placement with
      | newLine => exact hnew
      | lastLine =>
          rw [List.dropLast_concat]
          simp only [entries, List.flatMap_append, List.map_append,
            List.flatMap_singleton, honto, List.append_assoc]
      | joined =>
          simp only [entries, List.flatMap_singleton, honto]
          rw [map_trim_splitOn_intercalate h.blanks (by simp)]
          rfl

theorem printable_blanks {blanks : Bytes} (h : blanks.all isBlank = true) :
    blanks.all isVisibleAscii = true := by
  apply List.all_eq_true.mpr
  intro b hb
  have hblank := List.all_eq_true.mp h b hb
  rw [isBlank, Bool.or_eq_true, beq_iff_eq, beq_iff_eq] at hblank
  rcases hblank with rfl | rfl <;> rfl

theorem printable_concat {lines : List Bytes} {line : Bytes} :
    Printable (lines ++ [line]) ↔
      Printable lines ∧ line.all isVisibleAscii = true := by
  simp [Printable, or_imp, forall_and]

theorem printable_intercalate {blanks : Bytes}
    (h : blanks.all isBlank = true) (lines : List Bytes) :
    (List.intercalate (44 :: blanks) lines).all isVisibleAscii = true ↔
      Printable lines := by
  have hcomma : isVisibleAscii 44 = true := rfl
  induction lines with
  | nil => simp [Printable]
  | cons line lines ih =>
      cases lines with
      | nil => simp [Printable]
      | cons next lines =>
          rw [List.intercalate_cons_cons, List.all_append, List.all_append,
            List.all_cons, hcomma, printable_blanks h, Bool.true_and,
            Bool.and_true, Bool.and_eq_true]
          have hcons : Printable (line :: next :: lines) ↔
              line.all isVisibleAscii = true ∧ Printable (next :: lines) :=
            List.forall_mem_cons
          exact (and_congr_right fun _ => ih).trans hcons.symm

/-- A proxy makes no line printable and none unprintable. -/
theorem printable_append {hop : Hop} {peer : IpAddr} (h : hop.Honest peer)
    (lines : List Bytes) :
    Printable (hop.append lines) ↔ Printable lines := by
  have hcomma : isVisibleAscii 44 = true := rfl
  have honto : ∀ line, (hop.onto line).all isVisibleAscii =
      line.all isVisibleAscii := by
    intro line
    rw [Hop.onto, List.all_append, List.all_cons, List.all_append, hcomma,
      printable_blanks h.blanks, h.printable]
    simp
  have hnew : Printable (lines ++ [hop.text]) ↔ Printable lines := by
    rw [printable_concat]
    exact and_iff_left h.printable
  unfold Hop.append
  cases hlast : lines.getLast? with
  | none => cases hop.placement <;> exact hnew
  | some last =>
      obtain ⟨front, rfl⟩ := List.getLast?_eq_some_iff.mp hlast
      cases hop.placement with
      | newLine => exact hnew
      | lastLine =>
          rw [List.dropLast_concat, printable_concat, printable_concat, honto]
      | joined =>
          have hjoined := honto
            (List.intercalate (44 :: hop.blanks) (front ++ [last]))
          rw [← printable_intercalate h.blanks (front ++ [last]), ← hjoined]
          exact List.forall_mem_singleton

/-! ## Chains -/

theorem getAll_forward (hop : Hop) (headers : HeaderMap) :
    getAll (hop.forward headers) "x-forwarded-for" =
      hop.append (getAll headers "x-forwarded-for") := by
  have hother : getAll (headers.filter fun h => h.1 != "x-forwarded-for")
      "x-forwarded-for" = [] := by
    simp [getAll]
  have hself : ∀ lines : List Bytes,
      getAll (lines.map fun line => ("x-forwarded-for", line))
        "x-forwarded-for" = lines := by
    intro lines
    simp [getAll, List.filter_map, Function.comp_def]
  unfold Hop.forward
  rw [getAll, List.filter_append, List.map_append]
  exact (congrArg₂ (· ++ ·) hother (hself _)).trans (List.nil_append _)

/-- The lines the dashboard reads are printable when the client's are, and
their last entries are what the proxies wrote. -/
theorem getAll_delivered {peer : IpAddr} {hops : List Hop}
    (h : HonestChain peer hops) (headers : HeaderMap) :
    (Printable (getAll (delivered hops headers) "x-forwarded-for") ↔
        Printable (getAll headers "x-forwarded-for")) ∧
      (entries (getAll (delivered hops headers) "x-forwarded-for")).map trim =
        (entries (getAll headers "x-forwarded-for")).map trim ++
          hops.map fun hop => trim hop.text := by
  induction hops generalizing peer headers with
  | nil => simp [delivered]
  | cons hop hops ih =>
      obtain ⟨hprintable, hentries⟩ := ih h.2 (hop.forward headers)
      rw [getAll_forward, printable_append h.1] at hprintable
      rw [getAll_forward, map_trim_entries_append h.1] at hentries
      refine ⟨hprintable, ?_⟩
      rw [List.append_assoc] at hentries
      exact hentries

namespace ClientAddr

variable {self : ClientAddr}

/-- The walk sees the trimmed entries only. -/
theorem walk_congr {es es' : List Bytes} (h : es.map trim = es'.map trim) :
    self.walk es = self.walk es' := by
  induction es generalizing es' with
  | nil =>
      rw [List.map_nil] at h
      rw [List.map_eq_nil_iff.mp h.symm]
  | cons e es ih =>
      cases es' with
      | nil => cases h
      | cons e' es' =>
          rw [List.map_cons, List.map_cons, List.cons.injEq] at h
          rw [walk, walk, h.1, ih h.2]

theorem walk_trusted {entry : Bytes} {ip : IpAddr} (h : Names entry ip)
    (htrusted : ip.toCanonical ∈ self.trustedProxies) (es : List Bytes) :
    self.walk (entry :: es) = self.walk es := by
  obtain ⟨ip', hparse, hcanonical⟩ := Option.map_eq_some_iff.mp h
  simp only [walk, hparse, hcanonical]
  exact if_pos htrusted

theorem walk_untrusted {entry : Bytes} {ip : IpAddr} (h : Names entry ip)
    (huntrusted : ip.toCanonical ∉ self.trustedProxies) (es : List Bytes) :
    self.walk (entry :: es) = some ip.toCanonical := by
  obtain ⟨ip', hparse, hcanonical⟩ := Option.map_eq_some_iff.mp h
  simp only [walk, hparse, hcanonical]
  exact if_neg huntrusted

/-- The walk passes what trusted proxies wrote about trusted peers. -/
theorem walk_chain {peer : IpAddr} {hops : List Hop}
    (h : HonestChain peer hops)
    (hpeer : peer.toCanonical ∈ self.trustedProxies)
    (htrusted : ∀ hop ∈ hops, hop.proxy.toCanonical ∈ self.trustedProxies)
    (es : List Bytes) :
    self.walk ((hops.map Hop.text).reverse ++ es) = self.walk es := by
  induction hops generalizing peer es with
  | nil => rfl
  | cons hop hops ih =>
      have hproxy := htrusted hop List.mem_cons_self
      have hrest := ih h.2 hproxy
        (fun hop' hmem => htrusted hop' (List.mem_cons_of_mem _ hmem))
        (hop.text :: es)
      rw [List.map_cons, List.reverse_cons, List.append_assoc]
      exact hrest.trans (walk_trusted h.1.names hpeer es)

/-- Behind trusted proxies the lines name the client, if they can be read. -/
theorem rightmostUntrusted_delivered {client : IpAddr} {hops : List Hop}
    (h : HonestChain client hops)
    (hclient : client.toCanonical ∉ self.trustedProxies)
    (htrusted : ∀ hop ∈ hops, hop.proxy.toCanonical ∈ self.trustedProxies)
    (hne : hops ≠ []) (sent : HeaderMap) :
    self.rightmostUntrusted (delivered hops sent) =
      if Printable (getAll sent "x-forwarded-for") then
        some client.toCanonical
      else none := by
  obtain ⟨hprintable, hentries⟩ := getAll_delivered h sent
  by_cases hread : Printable (getAll sent "x-forwarded-for")
  · rw [if_pos hread, rightmostUntrusted,
      entriesOf_of_printable (hprintable.mpr hread)]
    obtain ⟨hop, hops, rfl⟩ := List.exists_cons_of_ne_nil hne
    have hproxy := htrusted hop List.mem_cons_self
    have hwalk := walk_chain h.2 hproxy
      (fun hop' hmem => htrusted hop' (List.mem_cons_of_mem _ hmem))
      (hop.text :: (entries (getAll sent "x-forwarded-for")).reverse)
    rw [walk_untrusted h.1.names hclient] at hwalk
    rw [← hwalk]
    apply walk_congr
    rw [List.map_reverse, hentries]
    simp [Function.comp_def]
  · rw [if_neg hread, rightmostUntrusted,
      entriesOf_of_not_printable (mt hprintable.mp hread)]
    rfl

theorem lastPeer_trusted (client : IpAddr) {hops : List Hop}
    (htrusted : ∀ hop ∈ hops, hop.proxy.toCanonical ∈ self.trustedProxies)
    (hne : hops ≠ []) :
    (lastPeer client hops).toCanonical ∈ self.trustedProxies := by
  obtain ⟨hop, hlast⟩ := Option.isSome_iff_exists.mp
    (List.getLast?_isSome.mpr hne)
  rw [lastPeer, hlast]
  exact htrusted hop (List.mem_of_getLast? hlast)

/-- The address a request of the client resolves to. -/
theorem resolve_delivered {client : IpAddr} {hops : List Hop}
    (hheader : self.header = some .xForwardedFor)
    (h : HonestChain client hops)
    (hclient : client.toCanonical ∉ self.trustedProxies)
    (htrusted : ∀ hop ∈ hops, hop.proxy.toCanonical ∈ self.trustedProxies)
    (sent : HeaderMap) :
    self.resolve (lastPeer client hops) (delivered hops sent) =
      if hops = [] then client
      else if Printable (getAll sent "x-forwarded-for") then
        client.toCanonical
      else lastPeer client hops := by
  rw [resolve, hheader]
  dsimp only
  by_cases hdirect : hops = []
  · subst hdirect
    rw [if_pos rfl]
    exact if_pos hclient
  · have hpeer := lastPeer_trusted client htrusted hdirect
    rw [if_neg (not_not.mpr hpeer), if_neg hdirect,
      rightmostUntrusted_delivered h hclient htrusted hdirect]
    by_cases hread : Printable (getAll sent "x-forwarded-for")
    · rw [if_pos hread, if_pos hread]
      exact IpAddr.toCanonical_toCanonical client
    · rw [if_neg hread, if_neg hread]

end ClientAddr

/-- Two requests of an untrusted client through the same trusted proxies are
counted against the client, both of them, if and only if there is no proxy in
between or every `x-forwarded-for` line the client sent is printable. -/
theorem resolve_client_iff (cfg : RateLimitConfig)
    (hheader : cfg.clientIpHeader = some .xForwardedFor) (client : IpAddr)
    (hclient : client.toCanonical ∉ (ClientAddr.fromConfig cfg).trustedProxies)
    (hops : List Hop) (hchain : HonestChain client hops)
    (htrusted : ∀ hop ∈ hops,
      hop.proxy.toCanonical ∈ (ClientAddr.fromConfig cfg).trustedProxies)
    (sent₁ sent₂ : HeaderMap) :
    let resolved := fun sent => (ClientAddr.fromConfig cfg).resolve
      (lastPeer client hops) (delivered hops sent)
    (resolved sent₁ = resolved sent₂ ∧
        (resolved sent₁).toCanonical = client.toCanonical) ↔
      hops = [] ∨ (Printable (getAll sent₁ "x-forwarded-for") ∧
        Printable (getAll sent₂ "x-forwarded-for")) := by
  intro resolved
  have hresolved : ∀ sent, resolved sent =
      if hops = [] then client
      else if Printable (getAll sent "x-forwarded-for") then
        client.toCanonical
      else lastPeer client hops :=
    ClientAddr.resolve_delivered hheader hchain hclient htrusted
  rw [hresolved sent₁, hresolved sent₂]
  by_cases hdirect : hops = []
  · simp [hdirect]
  · have hpeer := ClientAddr.lastPeer_trusted client htrusted hdirect
    have hother : (lastPeer client hops).toCanonical ≠ client.toCanonical :=
      fun heq => hclient (heq ▸ hpeer)
    by_cases hread₁ : Printable (getAll sent₁ "x-forwarded-for")
    · by_cases hread₂ : Printable (getAll sent₂ "x-forwarded-for")
      · simp [hdirect, hread₁, hread₂]
      · have hne : client.toCanonical ≠ lastPeer client hops := by
          intro heq
          apply hother
          rw [← heq, IpAddr.toCanonical_toCanonical]
        simp [hdirect, hread₁, hread₂, hne]
    · simp [hdirect, hread₁, hother]

/-- The client behind one proxy. -/
def sampleClient : IpAddr := .v4 { a := 203, b := 0, c := 113, d := 7 }

/-- A proxy that writes `203.0.113.7` on a line of its own. -/
def sampleHop : Hop where
  proxy := .v4 { a := 10, b := 0, c := 0, d := 2 }
  text := [50, 48, 51, 46, 48, 46, 49, 49, 51, 46, 55]
  blanks := [32]
  placement := .newLine

def sampleConfig : RateLimitConfig where
  trustedProxies := [sampleHop.proxy]
  clientIpHeader := some .xForwardedFor

theorem sampleHop_honest : HonestChain sampleClient [sampleHop] :=
  ⟨⟨by unfold Names; decide, by decide, by decide, by decide⟩, trivial⟩

theorem resolve_client_iff_sample :
    (ClientAddr.fromConfig sampleConfig).resolve sampleHop.proxy
        (delivered [sampleHop] [("x-forwarded-for", [49, 44, 120])]) =
      (ClientAddr.fromConfig sampleConfig).resolve sampleHop.proxy
        (delivered [sampleHop] []) := by
  have hiff := resolve_client_iff sampleConfig rfl sampleClient (by decide)
    [sampleHop] sampleHop_honest (by decide)
    [("x-forwarded-for", [49, 44, 120])] []
  exact (hiff.mpr (Or.inr (by decide))).1

/-- One byte that is not printable, and the request is counted against the
proxy. -/
theorem resolve_unprintable_line :
    HonestChain sampleClient [sampleHop] ∧
      sampleClient.toCanonical ∉
        (ClientAddr.fromConfig sampleConfig).trustedProxies ∧
      (ClientAddr.fromConfig sampleConfig).resolve sampleHop.proxy
        (delivered [sampleHop] []) = sampleClient ∧
      (ClientAddr.fromConfig sampleConfig).resolve sampleHop.proxy
        (delivered [sampleHop] [("x-forwarded-for", [0xe9])]) =
          sampleHop.proxy ∧
      sampleHop.proxy ≠ sampleClient :=
  ⟨sampleHop_honest, by decide, by decide, by decide, by decide⟩

end ReserveGrid.Dashboard
