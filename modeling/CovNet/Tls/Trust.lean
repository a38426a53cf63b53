import CovNet.Tls.Options

/-!
# TLS verification

`tcp::socket::init_ssl` and what it calls (`include/network.hpp`): the trust store of the context is loaded as the
trust mode says, and the stream gets its verification. What OpenSSL, the environment and the platform answer is the
parameter `Ssl`.

The verification of a stream is decided by three fields of the options, which three functions read. For options that
`parse_ssl_options` returned they agree: verification is off exactly when the script asked for the trust mode
`insecure` (`tls_verification_explicit`).
-/

namespace CovNet.Tls
open Lib Text

/-- The system the program was built for. -/
inductive Platform where
  | linux
  | apple
  | bsd
  | windows
  | other
  deriving DecidableEq, Repr

/-- OpenSSL and its surroundings. A text is what an exception says, none is success. -/
structure Ssl where
  platform : Platform
  setDefaultVerifyPaths : Option Bytes
  loadVerifyFile : Bytes → Option Bytes
  addVerifyPath : Bytes → Option Bytes
  /-- `SSL_CERT_FILE`, empty where it is not set. -/
  certFile : Bytes
  /-- `SSL_CERT_DIR` -/
  certDir : Bytes
  /-- Whether a certificate of a Windows store is decoded, none for a store that cannot be opened. -/
  certStore : Bytes → Option Bool
  /-- `SSL_set_tlsext_host_name` -/
  setHostName : Bytes → Bool

/-- `trust_load_report`. -/
structure TrustLoadReport where
  loadedAny : Bool := false
  loadedSources : List Bytes := []
  failedSources : List Bytes := []
  deriving DecidableEq, Repr

namespace TrustLoadReport
variable (report : TrustLoadReport)

/-- `mark_loaded`. -/
def markLoaded (src : Bytes) : TrustLoadReport :=
  { report with loadedAny := true, loadedSources := report.loadedSources ++ [src] }

/-- `mark_failed`. -/
def markFailed (src reason : Bytes) : TrustLoadReport :=
  { report with failedSources := report.failedSources ++ [src ++ bytes " (" ++ reason ++ bytes ")"] }

/-- A source is tried. -/
def mark (src : Bytes) : Option Bytes → TrustLoadReport
  | none => report.markLoaded src
  | some what => report.markFailed src what

end TrustLoadReport

/-- `join_items`. -/
def joinItems (items : List Bytes) : Bytes :=
  if items.isEmpty then bytes "(none)" else (bytes "; ").intercalate items

section Sources
variable (ssl : Ssl)

/-- `try_load_verify_file`. -/
def tryLoadVerifyFile (source : Bytes) (report : TrustLoadReport) (path : Bytes) : TrustLoadReport :=
  if path.isEmpty then report else report.mark (source ++ bytes ":" ++ path) (ssl.loadVerifyFile path)

/-- `try_add_verify_path`. -/
def tryAddVerifyPath (source : Bytes) (report : TrustLoadReport) (path : Bytes) : TrustLoadReport :=
  if path.isEmpty then report else report.mark (source ++ bytes ":" ++ path) (ssl.addVerifyPath path)

/-- `set_default_verify_paths`, on an empty report. -/
def tryDefaultVerifyPaths : TrustLoadReport :=
  TrustLoadReport.mark {} (bytes "openssl:default_verify_paths") ssl.setDefaultVerifyPaths

/-- `try_load_env_trust_sources`. -/
def tryLoadEnvTrustSources (report : TrustLoadReport) : TrustLoadReport :=
  tryAddVerifyPath ssl (bytes "env:SSL_CERT_DIR")
    (tryLoadVerifyFile ssl (bytes "env:SSL_CERT_FILE") report ssl.certFile) ssl.certDir

/-- The files and directories of a platform. -/
def candidates : Platform → List Bytes × List Bytes
  | .linux =>
    ([bytes "/etc/ssl/certs/ca-certificates.crt", bytes "/etc/pki/tls/certs/ca-bundle.crt",
      bytes "/etc/ssl/ca-bundle.pem", bytes "/etc/pki/tls/cacert.pem", bytes "/etc/ssl/cert.pem"],
      [bytes "/etc/ssl/certs", bytes "/etc/pki/tls/certs"])
  | .apple =>
    ([bytes "/etc/ssl/cert.pem", bytes "/opt/homebrew/etc/openssl@3/cert.pem",
      bytes "/usr/local/etc/openssl@3/cert.pem", bytes "/opt/homebrew/etc/openssl@1.1/cert.pem",
      bytes "/usr/local/etc/openssl@1.1/cert.pem"],
      [bytes "/opt/homebrew/etc/openssl@3/certs", bytes "/usr/local/etc/openssl@3/certs",
        bytes "/opt/homebrew/etc/openssl@1.1/certs", bytes "/usr/local/etc/openssl@1.1/certs"])
  | .bsd =>
    ([bytes "/usr/local/share/certs/ca-root-nss.crt", bytes "/etc/ssl/cert.pem"],
      [bytes "/usr/local/share/certs", bytes "/etc/ssl/certs"])
  | .windows | .other => ([], [])

/-- The name of a platform in a report. -/
def platformName : Platform → Bytes
  | .linux => bytes "linux"
  | .apple => bytes "macos"
  | .bsd => bytes "bsd"
  | .windows | .other => []

/-- `try_load_platform_fallback_trust_sources`. -/
def tryLoadPlatformFallbackTrustSources (report : TrustLoadReport) : TrustLoadReport :=
  let name := platformName ssl.platform
  let (files, dirs) := candidates ssl.platform
  dirs.foldl (tryAddVerifyPath ssl (name ++ bytes ":dir")) (files.foldl (tryLoadVerifyFile ssl (name ++ bytes ":file")) report)

/-- `load_windows_root_certs`. -/
def loadWindowsRootCerts (report : TrustLoadReport) : TrustLoadReport :=
  [bytes "ROOT", bytes "CA", bytes "AuthRoot"].foldl (fun report name =>
    match ssl.certStore name with
    | none => report.markFailed (bytes "windows:" ++ name) (bytes "failed to open " ++ name ++ bytes " cert store")
    | some true => report.markLoaded (bytes "windows:" ++ name)
    | some false =>
      report.markFailed (bytes "windows:" ++ name) (bytes "no certificates decoded from " ++ name ++ bytes " store"))
    report

/-- `build_trust_error`. -/
def buildTrustError (mode : Bytes) (report : TrustLoadReport) : Bytes :=
  bytes "TLS " ++ mode ++ bytes " trust store initialization failed. " ++
    bytes "Loaded: " ++ joinItems report.loadedSources ++ bytes ". " ++
    bytes "Tried/failed: " ++ joinItems report.failedSources ++ bytes "."

/-- `build_trust_report`. -/
def buildTrustReport (mode : Bytes) (report : TrustLoadReport) : Bytes :=
  bytes "trust_mode=" ++ mode ++ bytes "; loaded=" ++ joinItems report.loadedSources ++
    bytes "; failed=" ++ joinItems report.failedSources

/-- The end of a case of `configure_client_context`: something was loaded, or it is an error. -/
def concludeTrust (mode : TrustMode) (report : TrustLoadReport) : Except Bytes Bytes :=
  if report.loadedAny then .ok (buildTrustReport mode.name report) else .error (buildTrustError mode.name report)

/-- `configure_client_context`: the report, or the error. -/
def configureClientContext (options : SslOptions) : Except Bytes Bytes :=
  match options.trustMode with
  | .auto =>
    let report := tryLoadEnvTrustSources ssl (tryDefaultVerifyPaths ssl)
    concludeTrust .auto
      (if ssl.platform = .windows then loadWindowsRootCerts ssl report
       else tryLoadPlatformFallbackTrustSources ssl report)
  | .openssl => concludeTrust .openssl (tryLoadEnvTrustSources ssl (tryDefaultVerifyPaths ssl))
  | .custom =>
    if options.caFile = [] ∧ options.caPath = [] then
      .error (bytes "TLS custom trust mode requires ca_file or ca_path.")
    else
      concludeTrust .custom
        (tryAddVerifyPath ssl (bytes "custom:ca_path") (tryLoadVerifyFile ssl (bytes "custom:ca_file") {} options.caFile)
          options.caPath)
  | .insecure => .ok (bytes "trust_mode=insecure; loaded=(none); failed=(none)")

end Sources

/-! ## Streams -/

/-- The verification of the peer's certificate. -/
inductive VerifyMode where
  | none
  | peer
  deriving DecidableEq, Repr

/-- The settings of a TLS stream: the name sent to the server, the verification mode, and the name that the
verification callback compares. -/
structure TlsStream where
  serverName : Bytes
  verifyMode : VerifyMode
  hostNameVerification : Option Bytes
  deriving DecidableEq, Repr

/-- `configure_client_stream`. -/
def configureClientStream (ssl : Ssl) (host : Bytes) (options : SslOptions) : Except Bytes TlsStream :=
  if ssl.setHostName host then
    .ok {
      serverName := host
      verifyMode := if options.trustMode = .insecure ∨ options.verifyPeer = false then .none else .peer
      hostNameVerification := if options.trustMode ≠ .insecure ∧ options.verifyHost = true then some host else none }
  else .error (bytes "Failed to set TLS SNI host name.")

/-- The part of a `tcp::socket` that `init_ssl` works on. `threadReport` is the report of the thread. -/
structure TlsSocket where
  isOpen : Bool
  tlsStream : Option TlsStream
  tlsEnabled : Bool
  lastTlsTrustReport : Bytes
  threadReport : Bytes
  deriving DecidableEq, Repr

/-- The report of a socket, and of its thread. -/
def TlsSocket.setReport (sock : TlsSocket) (report : Bytes) : TlsSocket :=
  { sock with lastTlsTrustReport := report, threadReport := report }

/-- `init_ssl`: how it ends, and the socket it leaves. -/
def initSsl (ssl : Ssl) (host : Bytes) (options : SslOptions) (sock : TlsSocket) : Except Bytes Unit × TlsSocket :=
  if sock.isOpen = false then (.error (bytes "TCP socket is not connected."), sock)
  else if sock.tlsStream.isSome then (.error (bytes "TLS has already been enabled on this socket."), sock)
  else if options.verifyHost = true ∧ options.verifyPeer = false then
    (.error (bytes "TLS host verification requires peer verification."), sock)
  else
    match configureClientContext ssl options with
    | .error what => (.error what, sock.setReport (bytes "trust_mode=error; loaded=(none); failed=" ++ what))
    | .ok report =>
      match configureClientStream ssl host options with
      | .error what => (.error what, sock.setReport report)
      | .ok stream => (.ok (), { sock.setReport report with tlsStream := some stream, tlsEnabled := true })

/-- `init_ssl` fails and leaves the stream alone, or the stream that is configured by the options is installed. -/
lemma initSsl_cases {ssl : Ssl} {host : Bytes} {options : SslOptions} {sock sock' : TlsSocket} {ends : Except Bytes Unit}
    (h : initSsl ssl host options sock = (ends, sock')) :
    (∃ what, ends = .error what ∧ sock'.tlsStream = sock.tlsStream ∧ sock'.tlsEnabled = sock.tlsEnabled) ∨
      ∃ stream, configureClientStream ssl host options = .ok stream ∧ ends = .ok () ∧
        sock'.tlsStream = some stream ∧ sock'.tlsEnabled = true := by
  unfold initSsl at h
  split at h
  · cases h
    exact .inl ⟨_, rfl, rfl, rfl⟩
  split at h
  · cases h
    exact .inl ⟨_, rfl, rfl, rfl⟩
  split at h
  · cases h
    exact .inl ⟨_, rfl, rfl, rfl⟩
  split at h
  · cases h
    exact .inl ⟨_, rfl, rfl, rfl⟩
  split at h
  · cases h
    exact .inl ⟨_, rfl, rfl, rfl⟩
  · rename_i stream configured
    cases h
    exact .inr ⟨stream, configured, rfl, rfl, rfl⟩

/-- A socket has TLS from `init_ssl` on only with a stream that is configured by the options. -/
lemma initSsl_ok {ssl : Ssl} {host : Bytes} {options : SslOptions} {sock sock' : TlsSocket}
    (h : initSsl ssl host options sock = (.ok (), sock')) :
    ∃ stream, configureClientStream ssl host options = .ok stream ∧ sock'.tlsStream = some stream := by
  rcases initSsl_cases h with ⟨what, failed, -⟩ | ⟨stream, configured, -, installed, -⟩
  · cases failed
  · exact ⟨stream, configured, installed⟩

/-- The settings of a stream, by the options. -/
lemma configureClientStream_ok {ssl : Ssl} {host : Bytes} {options : SslOptions} {stream : TlsStream}
    (h : configureClientStream ssl host options = .ok stream) :
    (stream.verifyMode = .none ↔ options.trustMode = .insecure ∨ options.verifyPeer = false) ∧
      (stream.hostNameVerification ≠ some host ↔ options.trustMode = .insecure ∨ options.verifyHost = false) := by
  unfold configureClientStream at h
  split at h
  · cases h
    constructor
    · split <;> simp_all
    · by_cases insecure : options.trustMode = .insecure <;> cases options.verifyHost <;> simp [insecure]
  · cases h

/-- Verification is off only on request. The options are accepted in every order of their entries or in none, and are
the same. For options that are accepted, a stream is without peer or host name verification exactly when the map says
`insecure`, and there are certificates of the script's own exactly when it says `custom`. -/
theorem tls_verification_explicit :
    (∀ (m m' : HashMap Value Value), m.entries.Perm m'.entries →
      ∀ o, parseSslOptions (.hashMap m) = .ok o ↔ parseSslOptions (.hashMap m') = .ok o) ∧
    ∀ v o, parseSslOptions v = .ok o →
      (∀ ssl host sock sock', initSsl ssl host o sock = (.ok (), sock') →
        ∃ stream, sock'.tlsStream = some stream ∧
          (stream.verifyMode = .none ∨ stream.hostNameVerification ≠ some host ↔ HasTrustMode .insecure v)) ∧
      (o.caFile ≠ [] ∨ o.caPath ≠ [] → HasTrustMode .custom v) ∧
      (HasTrustMode .custom v → o.caFile ≠ [] ∨ o.caPath ≠ []) := by
  refine ⟨fun m m' p o => parseSslOptions_perm p o, fun v o accepted => ?_⟩
  obtain ⟨mode, peer, host, paths⟩ := parseSslOptions_ok accepted
  have custom := mode .custom (by decide)
  have insecure := mode .insecure (by decide)
  refine ⟨fun ssl name sock sock' enabled => ?_, fun some_path => ?_, fun has => ?_⟩
  · obtain ⟨stream, configured, installed⟩ := initSsl_ok enabled
    obtain ⟨noPeer, noHost⟩ := configureClientStream_ok configured
    have noPeer' : o.verifyPeer = false ↔ o.trustMode = .insecure := by
      rw [← Bool.not_eq_true, peer, not_not]
    have noHost' : o.verifyHost = false ↔ o.trustMode = .insecure := by
      rw [← Bool.not_eq_true, host, not_not]
    refine ⟨stream, installed, ?_⟩
    rw [noPeer, noHost, noPeer', noHost', or_self, or_self, insecure]
  · exact custom.mp (paths.mp some_path)
  · exact paths.mpr (custom.mpr has)

/-- A server without a trust store: only an explicit request gets a stream. -/
theorem tls_verification_explicit_page :
    ∃ stream, (initSsl ⟨.other, some [], fun _ => some [], fun _ => some [], [], [], fun _ => none, fun _ => true⟩
        (bytes "example") ⟨.insecure, false, false, [], []⟩ ⟨true, none, false, [], []⟩).2.tlsStream = some stream ∧
      (stream.verifyMode = .none ∨ stream.hostNameVerification ≠ some (bytes "example")) := by
  have accepted : parseSslOptions (.hashMap ⟨[⟨keyOf "trust_mode", keyOf "insecure"⟩], List.nodupKeys_singleton _⟩) =
      .ok ⟨.insecure, false, false, [], []⟩ := by rfl
  obtain ⟨stream, installed, off⟩ := (tls_verification_explicit.2 _ _ accepted).1
    ⟨.other, some [], fun _ => some [], fun _ => some [], [], [], fun _ => none, fun _ => true⟩ (bytes "example")
    ⟨true, none, false, [], []⟩ _ rfl
  exact ⟨stream, installed, off.mpr ⟨_, rfl, rfl⟩⟩

end CovNet.Tls
