/-!
The names that the node gives to the spans, events and attributes which measurements read.
-/

namespace ContentProbe.Names

/-- Announcing content in the routing table, and the announced key. -/
def provide : String := "IpfsDHT.Provide"

def provideKey : String := "key"

/-- The search for providers of a content id, and the events of a peer in it. -/
def findProviders : String := "ProviderQueryManager.FindProvidersAsync"

def findProvidersCid : String := "cid"

def foundProvider : String := "FoundProvider"

def connectedToProvider : String := "ConnectedToProvider"

def peer : String := "peer"

/-- A query to an index of providers, and the status of its answer. -/
def indexQuery : String := "DelegatedHTTPClient.FindProviders"

def statusCode : String := "http.response.status_code"

/-- A query to the routing table. -/
def routingQuery : String := "IpfsDHT.FindProvidersAsync"

/-- The span that encloses the handling of a request. -/
def handler : String := "corehttp.cmdsHandler"

/-- The exchange of blocks: asking for one and receiving messages. -/
def getBlock : String := "Bitswap.Client.Getter.SyncGetBlock"

def idleBroadcast : String := "IdleBroadcast"

def handleIncoming : String := "Bitswap.Client.Getter.handleIncoming"

def receivedBlock : String := "received block"

end ContentProbe.Names
