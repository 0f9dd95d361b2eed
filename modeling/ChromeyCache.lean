import ChromeyCache.Manager.Headers
import ChromeyCache.Manager.Key
import ChromeyCache.Manager.Hybrid
import ChromeyCache.Remote.Payload
import ChromeyCache.Remote.Site
import ChromeyCache.Manager.BaseTag
import ChromeyCache.Manager.Rewrite
import ChromeyCache.Manager.Edits
import ChromeyCache.Manager.Utf8
import ChromeyCache.DumpRemote.Worker
import ChromeyCache.DumpRemote.Rate
import ChromeyCache.DumpRemote.Drain
