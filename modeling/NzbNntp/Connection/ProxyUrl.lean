import NzbNntp.Connection.Parsers

/-!
What `parse_socks5_url` makes of a proxy URL. The address is what follows the last
at-sign, and the first colon before that ends the user; so a password may hold both
separators, a user at-signs, and an address colons.
-/

namespace NzbNntp

open Delimited

/-! ### Cutting at a separator -/

section Separators

variable {c : Char} {a b : List Char}

theorem splitOnce_append (ha : c ∉ a) : splitOnce c (a ++ c :: b) = some (a, b) := by
  have htake : (a ++ c :: b).takeWhile (· ≠ c) = a := by
    rw [List.takeWhile_append_of_pos fun x hx => by simpa using ne_of_mem_of_not_mem hx ha]
    simp
  have hdrop : (a ++ c :: b).dropWhile (· ≠ c) = c :: b := by
    rw [List.dropWhile_append_of_pos fun x hx => by simpa using ne_of_mem_of_not_mem hx ha]
    simp
  rw [splitOnce, if_pos (by simp), htake, hdrop, List.tail_cons]

theorem splitOnce_of_not_mem (ha : c ∉ a) : splitOnce c a = none := if_neg ha

theorem splitAtLast_append (hb : c ∉ b) : splitAtLast c (a ++ c :: b) = some (a, b) := by
  have hreverse : (a ++ c :: b).reverse = b.reverse ++ c :: a.reverse := by simp
  have hfree : c ∉ b.reverse := by rwa [List.mem_reverse]
  rw [splitAtLast, hreverse, splitOnce_append hfree]
  simp

theorem splitAtLast_of_not_mem (ha : c ∉ a) : splitAtLast c a = none := by
  have hfree : c ∉ a.reverse := by rwa [List.mem_reverse]
  rw [splitAtLast, splitOnce_of_not_mem hfree]
  rfl

end Separators

/-! ### The four shapes of a URL -/

section Shapes

variable {url : String} {user pass hostPort : List Char}

/-- The last step: an address is not empty. -/
def proxyAt (auth : Option (String × String)) (hostPort : List Char) :
    Except String Socks5Proxy :=
  if hostPort.isEmpty then .error "proxy URL must contain host:port"
  else .ok { addr := .ofList hostPort, auth }

theorem proxyAt_eq_error_iff {auth : Option (String × String)} :
    (∃ e, proxyAt auth hostPort = .error e) ↔ hostPort = [] := by
  unfold proxyAt
  split
  · rename_i h
    exact iff_of_true ⟨_, rfl⟩ (List.isEmpty_iff.mp h)
  · rename_i h
    refine iff_of_false ?_ (by simpa using h)
    rintro ⟨e, he⟩
    cases he

theorem parseSocks5Url_without_scheme (h : ¬ "socks5://".toList <+: url.toList) :
    parseSocks5Url url = .error s!"proxy URL must start with socks5://, got: {url}" := by
  have hscheme : "socks5://".toList.isPrefixOf url.toList = false := by
    rwa [← Bool.not_eq_true, List.isPrefixOf_iff_prefix]
  rw [parseSocks5Url, if_pos (by rw [hscheme]; rfl)]

theorem parseSocks5Url_with_scheme {rest : List Char}
    (h : url.toList = "socks5://".toList ++ rest) :
    parseSocks5Url url =
      match splitAtLast '@' rest with
      | none => proxyAt none rest
      | some (authPart, hostPart) =>
          match splitOnce ':' authPart with
          | none => .error "proxy auth must be username:password"
          | some (user, pass) => proxyAt (some (.ofList user, .ofList pass)) hostPart := by
  have hscheme : "socks5://".toList.isPrefixOf url.toList = true := by
    rw [List.isPrefixOf_iff_prefix, h]
    exact List.prefix_append _ _
  have hrest : url.toList.drop "socks5://".toList.length = rest := by
    rw [h, List.drop_left]
  rw [parseSocks5Url, if_neg (by rw [hscheme]; exact Bool.false_ne_true), hrest]
  rfl

theorem parseSocks5Url_plain (hhost : '@' ∉ hostPort)
    (h : url.toList = "socks5://".toList ++ hostPort) :
    parseSocks5Url url = proxyAt none hostPort := by
  rw [parseSocks5Url_with_scheme h, splitAtLast_of_not_mem hhost]

theorem parseSocks5Url_credentials (huser : ':' ∉ user) (hhost : '@' ∉ hostPort)
    (h : url.toList = "socks5://".toList ++ ((user ++ ':' :: pass) ++ '@' :: hostPort)) :
    parseSocks5Url url = proxyAt (some (.ofList user, .ofList pass)) hostPort := by
  rw [parseSocks5Url_with_scheme h, splitAtLast_append hhost]
  dsimp only
  rw [splitOnce_append huser]

theorem parseSocks5Url_noColon (huser : ':' ∉ user) (hhost : '@' ∉ hostPort)
    (h : url.toList = "socks5://".toList ++ (user ++ '@' :: hostPort)) :
    parseSocks5Url url = .error "proxy auth must be username:password" := by
  rw [parseSocks5Url_with_scheme h, splitAtLast_append hhost]
  dsimp only
  rw [splitOnce_of_not_mem huser]

end Shapes

/-! ### Which URLs are refused -/

/-- What is wrong with a URL: it has another scheme, or an at-sign with no colon before
the last one, or no address after the last at-sign (or at all, where there is none). -/
inductive MalformedProxyUrl (url : String) : Prop where
  | scheme (h : ¬ "socks5://".toList <+: url.toList)
  | credentials (auth hostPort : List Char) (colon : ':' ∉ auth) (last : '@' ∉ hostPort)
      (h : url.toList = "socks5://".toList ++ (auth ++ '@' :: hostPort))
  | emptyAddress (auth : List Char) (h : url.toList = "socks5://".toList ++ (auth ++ ['@']))
  | empty (h : url.toList = "socks5://".toList)

theorem malformed_of_error {url : String} (h : ∃ e, parseSocks5Url url = .error e) :
    MalformedProxyUrl url := by
  by_cases hscheme : "socks5://".toList <+: url.toList
  · obtain ⟨rest, hrest⟩ := hscheme
    by_cases hat : '@' ∈ rest
    · obtain ⟨auth, hostPort, rfl, hlast⟩ := eq_append_last_of_mem hat
      by_cases hcolon : ':' ∈ auth
      · obtain ⟨user, pass, rfl, huser⟩ := List.eq_append_cons_of_mem hcolon
        rw [parseSocks5Url_credentials huser hlast hrest.symm] at h
        obtain rfl := proxyAt_eq_error_iff.mp h
        exact .emptyAddress _ hrest.symm
      · exact .credentials auth hostPort hcolon hlast hrest.symm
    · rw [parseSocks5Url_plain hat hrest.symm] at h
      obtain rfl := proxyAt_eq_error_iff.mp h
      exact .empty (by rw [← hrest, List.append_nil])
  · exact .scheme hscheme

theorem error_of_malformed {url : String} (h : MalformedProxyUrl url) :
    ∃ e, parseSocks5Url url = .error e := by
  cases h with
  | scheme h => exact ⟨_, parseSocks5Url_without_scheme h⟩
  | credentials auth hostPort hcolon hlast h =>
      exact ⟨_, parseSocks5Url_noColon hcolon hlast h⟩
  | emptyAddress auth h =>
      by_cases hcolon : ':' ∈ auth
      · obtain ⟨user, pass, rfl, huser⟩ := List.eq_append_cons_of_mem hcolon
        rw [parseSocks5Url_credentials huser (by simp) h]
        exact proxyAt_eq_error_iff.mpr rfl
      · exact ⟨_, parseSocks5Url_noColon hcolon (by simp) h⟩
  | empty h =>
      have hrest : url.toList = "socks5://".toList ++ [] := by rw [h, List.append_nil]
      rw [parseSocks5Url_plain (by simp) hrest]
      exact proxyAt_eq_error_iff.mpr rfl

/-- **A proxy URL reads back as it was built.** Credentials and an address, or an address
alone, are read as they were written: the password may be any text, the user any text
without a colon, the address any text but the empty one without an at-sign. An error comes
of the malformed URLs, and of no others. -/
theorem proxyUrl_round_trip :
    (∀ user password hostPort : String, ':' ∉ user.toList → '@' ∉ hostPort.toList →
      hostPort ≠ "" →
        parseSocks5Url s!"socks5://{user}:{password}@{hostPort}" =
          .ok { addr := hostPort, auth := some (user, password) }) ∧
    (∀ hostPort : String, '@' ∉ hostPort.toList → hostPort ≠ "" →
      parseSocks5Url s!"socks5://{hostPort}" = .ok { addr := hostPort, auth := none }) ∧
    ∀ url, (∃ e, parseSocks5Url url = .error e) ↔ MalformedProxyUrl url := by
  have haddress : ∀ (auth : Option (String × String)) (hostPort : String), hostPort ≠ "" →
      proxyAt auth hostPort.toList = .ok { addr := hostPort, auth } := by
    intro auth hostPort hne
    have hempty : hostPort.toList.isEmpty = false := by simpa using hne
    rw [proxyAt, hempty, String.ofList_toList]
    rfl
  refine ⟨fun user password hostPort huser hhost hne => ?_, fun hostPort hhost hne => ?_,
    fun url => ⟨malformed_of_error, error_of_malformed⟩⟩
  · have hurl : (s!"socks5://{user}:{password}@{hostPort}").toList = "socks5://".toList ++
        ((user.toList ++ ':' :: password.toList) ++ '@' :: hostPort.toList) := by simp
    rw [parseSocks5Url_credentials huser hhost hurl, haddress _ _ hne, String.ofList_toList,
      String.ofList_toList]
  · rw [parseSocks5Url_plain hhost (by simp), haddress _ _ hne]

/-- A user with an at-sign and a password with both separators. -/
theorem proxyUrl_round_trip_on_separators :
    parseSocks5Url "socks5://me@site:p:w@d@127.0.0.1:1080" =
      .ok { addr := "127.0.0.1:1080", auth := some ("me@site", "p:w@d") } :=
  proxyUrl_round_trip.1 "me@site" "p:w@d" "127.0.0.1:1080" (by decide) (by decide) (by decide)

end NzbNntp
