import Cmall.Json
import Cmall.Transition

/-!
The configuration table: `admin_set_wxpay_detail` with `erase_and_insert`, and
`load_configs`.

A transaction is READ COMMITTED: its `DELETE` finds the rows that are committed when it
starts, and what it erases and inserts is there for others from its commit on. So a request
makes two steps, `erase` and `finish`, and other requests may come between them.
-/

namespace Cmall.WxpayConfig

/-- `cmall_config`. -/
structure CmallConfig where
  id : Nat
  configName : String
  configValue : String
  deriving DecidableEq, Repr

/-- `tencent_microapp_pay_cfg_t`. -/
structure PayCfg where
  appid : String := ""
  rsaKey : String := ""
  rsaCert : String := ""
  apiv3Key : String := ""
  mchid : String := ""
  appSecret : String := ""
  notifyUrl : String := ""
  deriving DecidableEq, Repr

/-- The parameters of `admin_set_wxpay_detail`. -/
def wxpayDetail (params : JsonObject) : PayCfg where
  rsaKey := Json.getString params "rsa_key"
  rsaCert := Json.getString params "rsa_cert"
  apiv3Key := Json.getString params "apiv3_key"
  appid := Json.getString params "sp_appid"
  mchid := Json.getString params "sp_mchid"
  appSecret := Json.getString params "appSecret"
  notifyUrl := Json.getString params "notify_url"

/-- `new_configs`, without the ids. -/
def newConfigs (cfg : PayCfg) : List (String × String) :=
  [("wxpay_appid", cfg.appid), ("wxpay_rsa_key", cfg.rsaKey), ("wxpay_rsa_cert", cfg.rsaCert),
    ("wxpay_apiv3_key", cfg.apiv3Key), ("wxpay_mchid", cfg.mchid),
    ("wxpay_appSecret", cfg.appSecret), ("wxpay_notify_url", cfg.notifyUrl)]

/-- The names of the query that erases. -/
def wxpayNames : List String :=
  ["wxpay_appid", "wxpay_rsa_key", "wxpay_rsa_cert", "wxpay_apiv3_key", "wxpay_mchid",
    "wxpay_appSecret", "wxpay_notify_url"]

def CmallConfig.isWxpay (row : CmallConfig) : Bool := wxpayNames.contains row.configName

/-- `persist` of each value in turn; the table's sequence gives the ids. -/
def persist (seq : Nat) : List (String × String) → List CmallConfig
  | [] => []
  | (name, value) :: rest => ⟨seq, name, value⟩ :: persist (seq + 1) rest

/-! ## Requests -/

inductive Phase where
  /-- In `retry_database_op` after so many attempts. -/
  | attempt (count : Nat)
  /-- The `DELETE` of this attempt has chosen its rows. -/
  | erased (count : Nat) (victims : List Nat)
  | replied
  /-- `internal_server_error` was thrown. -/
  | threw
  deriving DecidableEq, Repr

structure Request where
  params : JsonObject
  phase : Phase

structure State where
  rows : List CmallConfig
  seq : Nat
  requests : List Request

def State.start (rows : List CmallConfig) (seq : Nat) : State :=
  { rows := rows, seq := seq, requests := [] }

/-- How an attempt ends. -/
inductive Outcome where
  | committed
  /-- The connection is lost after the commit has reached the database. -/
  | lost
  /-- Nothing was committed: `odb::recoverable`. -/
  | recoverable
  | error
  deriving DecidableEq, Repr

inductive Step where
  | request (params : JsonObject)
  | erase (n : Nat)
  | finish (n : Nat) (outcome : Outcome)

def dbMaxRetries : Nat := 25

def retried (count : Nat) : Phase :=
  if count + 1 < dbMaxRetries then .attempt (count + 1) else .threw

/-- The commit of `erase_and_insert`: the rows that were chosen go, seven rows come. -/
def State.commit (s : State) (victims : List Nat) (cfg : PayCfg) : State :=
  { s with
    rows := s.rows.filter (fun row => !victims.contains row.id) ++ persist s.seq (newConfigs cfg)
    seq := s.seq + 7 }

def State.setPhase (s : State) (n : Nat) (r : Request) (phase : Phase) : State :=
  { s with requests := s.requests.set n ⟨r.params, phase⟩ }

def step (s : State) : Step → State
  | .request params => { s with requests := s.requests ++ [⟨params, .attempt 0⟩] }
  | .erase n =>
    match s.requests[n]? with
    | some ⟨params, .attempt count⟩ =>
      s.setPhase n ⟨params, .attempt count⟩
        (.erased count ((s.rows.filter CmallConfig.isWxpay).map (·.id)))
    | _ => s
  | .finish n outcome =>
    match s.requests[n]? with
    | some ⟨params, .erased count victims⟩ =>
      let r : Request := ⟨params, .erased count victims⟩
      match outcome with
      | .committed => (s.commit victims (wxpayDetail params)).setPhase n r .replied
      | .lost => (s.commit victims (wxpayDetail params)).setPhase n r (retried count)
      | .recoverable => s.setPhase n r (retried count)
      | .error => s.setPhase n r .threw
    | _ => s

/-! ## load_configs -/

/-- The fields of `m_config` that are read from the table. -/
structure ServiceConfig where
  giteaTemplateUser : String := ""
  giteaTemplateReponame : String := ""
  siteName : String := ""
  neteaseSecretId : String := ""
  neteaseSecretKey : String := ""
  neteaseBusinessId : String := ""
  tencentSecretId : String := ""
  tencentSecretKey : String := ""
  deriving DecidableEq, Repr

/-- The branches of the loop for `m_config`. -/
def ServiceConfig.item (config : ServiceConfig) (row : CmallConfig) : Option ServiceConfig :=
  let value := row.configValue
  if row.configName = "gitea_template_user" then some { config with giteaTemplateUser := value }
  else if row.configName = "gitea_template_reponame" then
    some { config with giteaTemplateReponame := value }
  else if row.configName = "site_name" then some { config with siteName := value }
  else if row.configName = "netease_secret_id" then some { config with neteaseSecretId := value }
  else if row.configName = "netease_secret_key" then some { config with neteaseSecretKey := value }
  else if row.configName = "netease_business_id" then some { config with neteaseBusinessId := value }
  else if row.configName = "tencent_id" then some { config with tencentSecretId := value }
  else if row.configName = "tencent_key" then some { config with tencentSecretKey := value }
  else none

/-- The branches of the loop for the payment service. -/
def PayCfg.item (cfg : PayCfg) (row : CmallConfig) : Option PayCfg :=
  let value := row.configValue
  if row.configName = "wxpay_appid" then some { cfg with appid := value }
  else if row.configName = "wxpay_rsa_key" then some { cfg with rsaKey := value }
  else if row.configName = "wxpay_rsa_cert" then some { cfg with rsaCert := value }
  else if row.configName = "wxpay_apiv3_key" then some { cfg with apiv3Key := value }
  else if row.configName = "wxpay_mchid" then some { cfg with mchid := value }
  else if row.configName = "wxpay_appSecret" then some { cfg with appSecret := value }
  else if row.configName = "wxpay_notify_url" then some { cfg with notifyUrl := value }
  else none

structure Loading where
  config : ServiceConfig
  cfg : PayCfg := {}
  complete : Nat := 0
  deriving DecidableEq, Repr

def Loading.item (l : Loading) (row : CmallConfig) : Loading :=
  match l.config.item row with
  | some config => { l with config := config }
  | none =>
    match l.cfg.item row with
    | some cfg => { l with cfg := cfg, complete := l.complete + 1 }
    | none => l

/-- The loop of `load_configs` over the rows, in the order the database gives them. -/
def loadRows (config : ServiceConfig) (rows : List CmallConfig) : Loading :=
  rows.foldl Loading.item { config := config }

/-- What `load_configs` leaves in `m_config` and in `wxpay_services`: a service for the
appid is made or initialised again. -/
def loadConfigs (config : ServiceConfig) (services : String → Option PayCfg)
    (rows : List CmallConfig) : ServiceConfig × (String → Option PayCfg) :=
  let l := loadRows config rows
  (l.config,
    if l.complete = 7 then fun appid => if appid = l.cfg.appid then some l.cfg else services appid
    else services)

end Cmall.WxpayConfig
