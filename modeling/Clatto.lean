import Clatto.Lib.Bytes
import Clatto.Lib.Effect
import Clatto.Xlate.Storm
import Clatto.Xlate.RoundTrip
import Clatto.Xlate.Fragments
import Clatto.Xlate.SourceRoute
import Clatto.Xlate.Stale
import Clatto.Addrmap.PoolAssign
import Clatto.Addrmap.PoolReload
import Clatto.Addrmap.Mapping
import Clatto.Addrmap.BuildSpec
import Clatto.Addrmap.Reserved
import Clatto.Netconf.Reconfigure
import Clatto.Config.OwnAddress
import Clatto.Xlate.Trailing
import Clatto.Daemon.Recovery
import Clatto.Daemon.Consumption
import Clatto.Daemon.Reloads
import Clatto.Tundev.Accounts
import Clatto.Addrmap.PoolCalls
import Clatto.Xlate.Series
import Clatto.Addrmap.PoolSaving
import Clatto.Daemon.Session
