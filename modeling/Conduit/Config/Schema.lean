import Conduit.Platform

/-!
# The configuration document

The typed shape of `conduit.toml`, record by record, with the defaults of the
schema.  Keys that no modelled function reads are left out: `runtime`,
`cpu_affinity`, `metrics_listen`, the TLS protocol options, `protocol`, `lb`,
`pool`, `server_name` and the filter chain.
-/

namespace Conduit.Config

inductive Workers where
  | auto
  | count (n : Nat) (positive : 0 < n)
  deriving DecidableEq

structure ServerConfig where
  workers : Workers := .auto
  listenHttp : List SocketAddr := []
  listenHttps : List SocketAddr := []
  listenH3 : List SocketAddr := []
  adminListen : SocketAddr
  deriving DecidableEq

structure CertSpec where
  sni : String
  cert : String
  key : String
  ocspResponse : Option String := none
  deriving DecidableEq, Repr

structure TlsConfig where
  certs : List CertSpec
  deriving DecidableEq, Repr

structure UpstreamTls where
  ca : Option String := none
  clientCert : Option String := none
  clientKey : Option String := none
  verify : Bool := true
  deriving DecidableEq, Repr

structure HealthCheck where
  path : String := "/healthz"
  interval : Duration
  timeout : Duration := Duration.fromSecs 2
  unhealthyThreshold : UInt32 := 3
  healthyThreshold : UInt32 := 1
  deriving DecidableEq, Repr

structure Upstream where
  name : String
  addrs : List SocketAddr
  tls : Option UpstreamTls := none
  connectTimeout : Duration := Duration.fromSecs 2
  healthCheck : Option HealthCheck := none
  deriving DecidableEq

structure HeaderMatch where
  name : String
  value : String
  deriving DecidableEq, Repr

structure RouteMatch where
  host : Option String := none
  pathPrefix : Option String := none
  pathExact : Option String := none
  pathRegex : Option String := none
  headers : List HeaderMatch := []
  deriving DecidableEq, Repr

structure Timeouts where
  connect : Duration := Duration.fromSecs 2
  read : Duration := Duration.fromSecs 30
  write : Duration := Duration.fromSecs 30
  total : Duration := Duration.fromSecs 60
  deriving DecidableEq, Repr

structure RetryPolicy where
  attempts : UInt32
  onStatus : List UInt16 := []
  onConnectError : Bool := false
  deriving DecidableEq, Repr

structure Route where
  match_ : RouteMatch
  upstream : String
  timeouts : Timeouts := {}
  retry : Option RetryPolicy := none
  deriving DecidableEq, Repr

end Conduit.Config

namespace Conduit

structure Config where
  server : Config.ServerConfig
  tls : Option Config.TlsConfig := none
  upstreams : List Config.Upstream := []
  routes : List Config.Route := []
  deriving DecidableEq

end Conduit
