/-
The table of media types. An entry starts with `=` and names the first part of the types behind it,
or is a second part and the extensions of the names of its files. A letter behind `^` is a capital.
-/
import Docsmith.Text.Packed

namespace Docsmith.Hosting

def mediaAlphabet : Array Char := " |abcdefghijklmnopqrstuvwxyz0123456789-+=._%~^".toList.toArray

def mediaTypes : Text.Packed := ⟨25038, "
 EY<1AJJI&PEDCDHVy*O1DFk,NAx2maX$T?xEYQGS3uH|P!SZQXq3w;@;Kb8)k9,l@U[0%La>;G,J5D_dma[^hrcB>Y;^(Z@dN3$
 %odq?]Cnk^bGFvsgmjTWKn]%Zqp2lJ@:.eTnxyLz~g>o$k#.M0UehaMFZ@iQx!!M%RAFsFhs:zd9=W^7jLx;6f!WU?9p!XB%BO,
 )=+sJjY~J$pIcEU>!]*s^ii,3p*[[uas@gGgAc&pOY#&Q5ChMr=GC1IRiYFZ.D>;hK,ouKrWDMuOA4Ut%Z(^xObEj<9cm~<74$l
 :!aWc0h)),m_;FCY;]R_1XC7PD[699X>1auNTr[_iwSxsfOWxcO36#4jJzWqJac!Dmvlm%r)n2,:eHmiyg2a+7+06:4[b~B+p&?
 BP1#pTD5,d0JfV#AdBU<:2zKuT_lGjbEqY%J;Oe0voF.m=DO0W:9qi]QMiH2[:r9csi&5p<;G~okwZY)%%__zZnQ*bBsb[hK24#
 +Vq0p&XF7OHc>ng$J&_N8MV~uHDJ.sZtcB,a64fD5q@Nd[,?3|+EzujvL4Hcu#;kYY.qu6a#4D$Q)@Se^QS4gwC@i4]I[>5Rl~2
 ^,]zT;bt?mbNNn,+3e+eoHe3w)9YJbu3+]IQU#5TUXerV%dPueE@<$W;V=JJeA?+67z4$aao%3@:aFD):+x,~cw)lneZ66zNWM#
 u%?t4^j)a&G0j,_r~Pr*yKV%DrTSvEA:8oJL0txW4cO,ECswF5_L$YtpE=Xb25tw#SiUjVQS(x>>YC[*a3HFY6~E_>:~:?]UG62
 8x|$n=0gd>[t@?(Ps|f5Mn,uH+8EHu~9;fO&:0rmCU4nD2x.ewt8Q]=?t]:;:v1%5bz&U^Q9X$AhdsS!$cv&Y_+r:a*umXxb&;k
 Rm6S;A1H.d38%7c[K8WcXcetYL&Am3!SD@H[w!4#.51exk7$yDfWAt$%BTkBGV3_X$.]xe5D%;M[v!:P!gxd.gr1zT4LbP9Vt,,
 L5.)^ORfaq=b][2,V3~cp9mdgTQCsCCsEF+k91o[55;_T6pd0e|)%g(yBG,~VR^Om(Y~50dI9MAzd>suYI<(nb9o?~l_A12Yx2W
 u2#%e;q?wnS*;PRk>f#43)*S1z$AE?JAE@*mZbX~*teio>l8%MZB~%4?U]7b[x=9K4|UJS|.fMqdvWPf^FeQ0zFntYRZy#+BMMX
 Ob6q2<PGYvEBQk0*<#kZY!cuH[_F2Kvk^K>4TwBK>h]pM2!bff.dyzWUMhtR7whk>JBx3[FN.xXvnXwJ#5c5v3S&1ON9Qs>=]V@
 MZT7#w<BZ98CABG;#dX.><YO!2HOEa~jfbYn5HDZ8=^+^m|x8NK*GE0fJyamuSSeGWXj^Y|U:RCzXlX+g_@nc@y]8|R4zL,DEq#
 :q0]Az&ah#TYVxJclQrr6]][V)VCJba6A$yz]ydHH*HLWTe0)+Vl,&i|mjbUiJ&nfu^Xu&$8Nn!Knh$qa)atf5J&e*4(!l1mujZ
 dB8w4GMDSHvHMJ|SIr8~9H)rHo.rcV573Vt3)$^rO^fUR%W8Vby0i!rmv^?8FQrWG@7y<K]fJi;+*rM*.7[xCX?<cVTYaq#puu]
 u:qC]OxB<aE4zOc4UDFzA|ppEH,9s=q[|nt21A>%s7UfHU=QTilKnLH14GwJgcS<#7SKT_<hzYkVs&k:6V^DE(4S1m[rvb6ubXa
 Y0;b)dQX&WFc1t:0=!K?[=fOkPN&re**[c>]b4q1&UCe.&MV>z=btIMZ$zhqueVhtHB?ujGMO9|]H58Xv7~5Kolwjrmr1[7gJ6a
 x1CDpAQj3PtFCgUS%>8^t$~9@!V58djDZZ.ZJHj?nx|XKadHy4E84=7F<5bgOm969@GmG<Vn(Pq7HmDOYU24$m_YPJdYr:1VZAz
 Rs:I8P4xKCS_FO^AEU_$G]qXIjwYgz<YRFK:eHieE>c%X&GztsGel7ll1XM~Y=;1ph^^&JL~(@Q|rtRdC1&9cQ#Gz^jjQK&5z:g
 >kNeV7ef!FiD#=[q%5HJ:~,3%%MFxSlWKY*t%?R4O1kEKW3EGkg!zDWos9cz3u79INV%7AXTcA($48n=3$Iq3BGF%5uu[5y8Wn>
 63DvBSe?47!Dz*Ay[ci?AtHuA|2#PA12mJAY)V5zRX>6osB3!2FAU.;>~a;Fuu9luv_fZGJhz%f7(EI5RP=ol|Rv%Wnt;$$i?!(
 G2Dg(FmPW.f4Ayc9f!,Mft1&Zh]mo6sa9qAgiq[8C6YC4IX6XB4DqkISvP%TFHedHU=RX3oI9Z.0OS(<ZgK(4W?pi[>a%16mobm
 d@&A*dNM!kZ]b]i~j#WK<~&3qjFBh3[E9gm%mdYvbCMXA3+Yw;c?9|!szm|:UkXz,h(R8>79HhD=@LjnOszf3X?.Nz@*Cf9bDHc
 g11E<gKnhq[HauE1<a2=h[sh|!8SrCzD1hr^FOdrCKUM+1F9|t5+%>8R?xiq>*%up]rJp7#DJO$[6Pz4GN)(O*hRpQ]8v*f*b7H
 pEF5<gS:Bf)jy|B.^sT(>+SCqmEQYz&]0jL;Fs7Af#Xpjb;ln,&MJ_i<w61O>%hFq[3#W2AIY<kc;uUH9p+3Mt?IKRRVp]p?p]%
 ItvKi~Li6!l+8HL)P91QJv.*]vFCXjv9=VOUn=xeXZF]y&ADkCsAsUx|BkIWKITlpggULVKd3j|)RVjqe|Qz@4FQEjI*PKU(hvn
 oM|FSf3_KKeaZ$k4VKlOM5:FgPAqj+h8Ux3S0%6VWrO<;!cb6>_xF)KCn!P35GSiu^qV_g>9S:5:>4fkeUgDoUyy7~+IOO0,u;E
 9B,YIo]~8U&ryZr<Zes[([I?O9Tm(+XB]v)QMi=$a=&N)+EsB;Kfge_zgsgPtl*~A=iwQ^P|N03q_<$[)B8?21PP(Q^9we&TG?@
 oDQLB+fh*_T~M?hwQxyOS8NaFAre9rq*>FIx2,.::AJT|;ly>>3nOwJqG#o^^W28n]8GCcp62D)B*L~2euP@IL4NGpfx62,k*$l
 a^g%0OR:jI[H[XDnf[vIswXXqjPBGXu)|f[Z6Dd8y#*CXp$Fvin&,1p08wxDh5b:WJiS]OEy6bjS+~kcvADD#?*C=DORDw)9xF9
 d]]]9xfktz[l!WO,ABa6QITN!_&a=?Vr(%5Ge>7AujzaAp*Sy%3XwwA:zsiKcj.]1nA8tDky!dX?Sjs7$,))M?iF$3^<5d?q^#K
 |6&B!|tA<$ZpIJ#;zYI9DCo86k6.X)1XS4rZ(X7us]l&UWiZOj|D74iY^9AEZ2X)5qmFho_vO4vSzUw86@r2n2?%u!@7Gx*Z7pJ
 |o~FbOA2zc;NdjE)Ps7?KAQ0_CJS57%VVL~uw5@0m)8VNx_5!1sgr8nirfnB@Q=7$*:qv,Vv7>2:Bo[7q,[egMzZ<WKQ,ElyjO_
 (+WuXnM%)t2IQehfGJ[05=ouhpbMSMwdPBwB($#IfpuWE7cBTj=)*]*2+)i3G>U$hHGep&v;D#|k~CM_,*F+.UdHUO(a<E:Gvf%
 Cfqat(eTWmWYAH%xB6,)7@H10+xAYpSScM?swj0eZASl$^kFneHj?e84WmR[I[218,Y#9f<u1^,6ZheITqXjd7(hYv08T5Rhm]S
 wb,QCY?m%g6DS&p87fcIjQ,M4:_c*jVopRo)O_h~J_]Y1tv]P^:,YTSo_Cfn$7f8!H8;_:dVLNjFYQxyAOL=$mV(@tR?g9fIKT?
 $85Y=dCBWY~AeIs31lwEJ#g8q#3<va;b,OOp2A*x(VniqR6+^IPv9?HD]YvG8ptOgNu5]_[Mf)jxGFBUR1jKz2lDJ&<7P=N>Hox
 u6raz]bJp~wS5n!3xwO*LvlA245[ELPk~YmhWkCoVEd=.Amp<UbUM%i=bq%tG6<l^pj;v%1@*RD_wd+kiQhk):_6^Y]l<:d!0yE
 _fWS0Z;7$GNk9<rpT*J7,4MnNPUb#PCx_o,,Y.IjMj3.ulH6e,)kn,jJwJx]+c)IBz3P5=?<o]KqI*N.,TNW0~fAM]@cPI12B<f
 eO+)7Nv,9D)L2g%oa(oo1VLu]YB>DR0Km,#u=u,mum<TSv&;Y;Bb*$34+<>8V?ZN%Mr2[^&|WJ$8rZ&gCxW6&FAb*H7[*sgqqiR
 )#lyMsR1,>mK*WZIrE1;%PjcHz2:.7TOSRn@u.A4(31i6!Fg%hKo(giqI]RX3a!<y%P=JxjxMzZA(!]%^G!^?^x6u53P>Y,is1_
 L)q4&kN~))&=YFdM&_?bP$(Enwy97E;M;|~wtoHIxX><|_]dJS[MYu:uf.gkINj2w&AAxPIXI#6jM&SW8q^:D$P|=&[JaBDDvW4
 Gz,@7SG^o=is@Oz)*F:Y9xayZ0M3>8tIyD~Ic$!=S1Vk,d8b~#]|dp(&ag%S:MdRS,|*#zGm=GMq9|LMGNg;cZRCIlRyAx%m]Na
 >V|ZCe3t>i^=vfqaqH8U+[qFH2.xRe~&_%PuO]]iczc~Jqz^50[#,lfOjzw@KkcDI3?*)zi0qb;+;CQ=avkTlQHJv^=N_)b%;>~
 o9+J4Pdj|,4*mf:v9?|R=kw9%M|DVA!r(!1Fad^ZO:ZLXoQ3$nZxfT4kE^EF,Up+FUM_:8KEMj,K=QZD0[uYJ&O$[6G@QPWQNS2
 2i(o#s<;P^^64STHi*_|S4_xjptkr+gYZ!Il~t_s]$A!iRh~Hb9yan0!D#sk*W<IRO#O;!AP1mu#Agt,g)7ZS[~p8+au,]#~Y>[
 73y!kYF)vN+Ho5Z)aRcxfv6pLUdd:>=7M$@cErA[It66qUtn2V&FspS+5HV;r@e;[i,?P+,U%eUYoM0H^K#P*SGHr6q4|)yBVOg
 jrd?U3f~G9t<)z:)!P%.x1qmNZ.9A(N8ZHd*tAzo4O1LK|Jxdl<&]ODs73M2*fXbCDSrHtE7^kj+XFia2F@<S!x@rm^X3l^5t_Y
 z_v|]t<KzxYB$RPT6]Y_HuLT[0(GKTRS@zLF!^Hp>dbE_?K^N&ec4PD6BGS9BdPL80%SNMB$D2z~z#q;?zpb6IgC5,|d9|6t$<e
 XgQ=dM6Q4jc2SwW:DT&#CqY>wMc]VE,r^?tSSXGHSTg)8T,g($y>nGmqabiwMf^7UL<4vWPyvt|R!cQ.s:ONHuh9G[^n:4@6l8%
 :v!EE8@()^%>h1g)p.rvb0#7nrIJX*&(<p6K*l)TyfG%C^:vFuG:85:6+1lMNp6FIw2,taSz7ffLO&QD7tu@Yq)moac~3PG.0jN
 B$Z4#l5vluxLLztD8_AQ)+#PhG^[KZ9fTE|1xdGAt5vgd<@)Sl1HDz]pwZclGU>Q+)*BA#G?QjeQBNXwd%F&#K|b)F4&^[70u;.
 wFx?2WUY;s+Hjbb<!(Mns_Ij5VS2=F^8;$^>rC@k;aKJ%Pe%>_U43=Vqi*|)z2fy#1a>58XXNn:T)GNO<+Ry~Rx&^VZQt|6Gnj!
 g,[ZtRgMwTIZ4J^wxc2B86Vc$1Zd)gUTaC$ZQio4#nLs[58h1CF_%KOBETFWu<6@d*KJU[3]H^:O^KIcpW=0kL(uv<.?sG)RYe;
 zmJ.qm_gxALpdywtY%a]OO.9aw0DtBB&GKYL_%2yuH:w9b^urguDEqK)uxpwvj@fV1e=%.(,|yI6yQ!QK$Nssb#z&v4m@xLr3fo
 [=MfdzP^W2*5+]Sy>K@!ffzM3)CwbqRZ<ptV*L]1~vZ5|uF1=I8nBzJ>7RXWPOpr6JO(KTH,ha?y$tM.SipmL#b658v4S6D5AYl
 u^fQJfW&f7jTmJoQrMA*bm2~]@d~!+;w*1d._y[n#4rj8Ij.5CVT!y^c=XTFoPUbnC>3vCJT!I%tl+Q$_#3:7KWXqAF,R9?66Na
 l?ar^1*~Y?=k2Xal_UB)td6vIli]b(2nPi+:YbuAB%.1sSWk[6g|?Yp8d,+GlH3K]o6jc;jbTcrpS;=RulfZ#YlkZADK+l7;#Zu
 ~f!i!%=gRx_%K)99(Qk20rW3|Tr&SEUK0Dx:(u?%.s~yf7jy&%>^yy4<Wdo*+a4DF3d6DOa^cBowjZP3UR.5y!H*Ue;uT0Pj(n1
 j1KF0E1HJW[SWgg.oz94.>9&f,Vn@FBhNJZXnA@<lVA4F,8c1I%qL[idA4B(5DxeFfAqym&pg@~c&yGO+*:XuQ_(<9_VwY06jok
 uz;f6$%C%8^q+sxQPsd~BkJXrOKErluLA1W5n>|*mG2Q>lR$zUe?FHmu:evj*ERmK!<sr+g<])ev*K~1Vxc~AmpATibT@%&q&#;
 ];.XiceHJILr]MApkAE4:Y0JP%pf9S1nD$W[i1C^5X<22vPeV~R.4_j>JR8#oHwT:AV[RbV!!qcEF<&;*4WqYp(aen?mJ#,_vkx
 fC,q$S|4~>ewjRkSDat>FU!PK.9vE!RsKtatGBKP7]tf5yjhqLYCki$F*ETd!;>RIUE>7;R;RoD>8)sv:!id9R(!T)QOXj]p(Eq
 WK.el3.*pX5*<z3_W0f*~$F52Xq|tN8ol6nYG!Jpat&Qf=NFRFd?HT<ltAFL#;I~v7NnkDCbiAX|QyY|f0Su6qH2SA=0jhWr5wu
 <%1RkRNUn8b9bU2OXY71Vpcs3z<j]2OA2$g$Y5dtb<=AVipLtC5;ZSTPNiopp@P)rnlxcL(TzC2;QOhFIcg9Pzhw%GyRegR4F?8
 JPD$KojP0xW@:uE;9:YFs)UaQ8k)3<,.;1E<=deO<50|qZaWr)yyLiSsH+;I||w^:mbYy.S29^92_$.@tQ1SSyCaG[:ZZs9rpj?
 %(jIJ?O7qO^Rsu7|HA=o$D7Ev#UK$x4AH)hb%8Bmpd<[=xyV~%%AFDSV)8@@0|~,|vG|3&i;.x[)<myGBLgXquBKYg3!+>SSMda
 gc;~<+?bXdCHp7V]#*xLIchkCQdhEtEh|vHM6>*,]mHT#zkyas:E&oYJ$TSuWlPp*jpMXo(a!bg~4LCBRm9C~OQwet%wJ!gc@+J
 h#z%Q3|&+m!,Q,]3nlv;R>P|rs00:H|$A9tjMam~.t?&T=HW75tmtG?eM?e]YxtrKAQ!#<[I%e]ix1d^24zEw5fNKRe<!jk0<KY
 AZ1VCpr,eIH%xfz>|R3%OaI>@HZ$4.]pHYP!zQ<QPI2>dol(J()g_TZer6@&Zm+Rej8HgqhaGa!<85mD8]OZyG1ji>%0W@^vuX>
 7I8eWK<>gTKa>*:h(H:i?::MrLjK67M(Lv8SvI$4B^gbsTR3~Hv]qFfjg0t>X3u2?AlN*YY]IFx310jb%)5~xZusX>OZ??+y[AM
 %mZ[G0_KNh@;O6l%22G;iNP3~)*_$!:#f3W_=;BMjQvJ_a=4j8K8.Op>@&S#F<wYc*dP0#rNdVerap)~q>2]3m|LB#vQ^.7hyVc
 $CEzp=l[i9+eX53xt6]cU^pVJ#L@X_&h<Q)CIfQRfQ8UDsni,lO(?|D+D^C6!^MjU4Bogv>6XsU(fqx2&KiyI~eYY]S]ek(!zmx
 6cpl=G]P])0.?%*+Im_VL>!=y5&Q_?%12CDqB|P=2m]tMSy^$XNAJE,aR^^XcPsBDo)jMhZ)nSJT5q]Knf+$V:1Ly5Iehg9Q*zy
 jpw>_K8w]ZHW@*_H9*.G3SKIbggH!F]evgjt1>yC>tU]xgU#IV3L|HziE1,E2eYHl!1w[GC_f+B!_l_F$YgfE!_O^$.<4YqNx5.
 ~pm7m?.Y^GiC^rXwoBg2gVV^Xx$DAupV?Csost)+iRoh0OhbigkV.pGkG=K%xZPpVn]Ik]KW1!^Dy;j;!@L^Sr*NV5yoqbk8Lyu
 T(QYm!iwa6QG!WEm3D4xDxwuGmLTRMpG~<+^O:%ENWrT%LWH.sBLdy.X;AmVVp@m!NOZ?Za&V0&.DKX._=lNUmg8^zGlaNg6&<+
 JzgWqf?d$U)y|~+n(Z~_sP_&M%cks_|6%%0_]S]5!nru#)&xt_dO&2>*j7lo<a.1]>$!$Afj0R94rdKUvoK|y<|AQa@I^3#4Z,8
 YV(ufh;D2Faufdw$<S0r0lMC1T#bfrNg#4*.euuK.r420T0Ms!QMoP>t*1SHs%Re~OY6mvZeYSu4&ed5bzhD@!DLj4[gQ:g=J8u
 _a<GZ<bv32xX<tkjr%WVcCRz&J]O*fA:N7:$8JHL9%)Z[[o*>?wgIrkWZ_OmwPt0$8oHw26%S^Fr^<e:zc^R5<PLy4Es5>%6pIp
 O#0q<rOZA&x6%#ca]&](TMN)!,;Zp*7cU3*jtLw$IpXg;5=[.[x+LK5rL4;(m4t$Ef4%D]>z($#EQPHi6ntf@h0wWyOU4L6=LL(
 =4u~!=Ir~$x!vC[4)P.3hFag?LFUgZf]LqdW6F[C>)>?+zdl>;uOBmzzP~U(_5m;0](kTc?vlo+]Wj;Gv=UX2rQH7no_j53EBqn
 ER|n[h1HuX!18%a:kF8cW@xKz^&$$e&H@QMCb6iW2W,.(E=oe0Fy]?sjPVf%*b6XDj+L?Jijn#^qj2xE3F2*M%[[hs]bcZQr:pF
 ,z8;~U4a@PEqi<2o:uoX>wVcj!x(0InpCLSN_x<mObs>X!L]#S^P]2EmNoBBFiR=W;_MkgSJ1]%SG8=2Hfl#LakJjs~MC%s<9y?
 .!EI4rQ=Cm<Bq*;z8Go9!:E|R1sxZ<@r~detp@0ZcE(M$((WAnh[!~D4qxu4e1lo~Php*|N^y8L<&Smi[ej1A(NQ7!Q=U@(Akx|
 ?em6krR;k*u+tkRwQM1!9It4zyG7MiWtz]_S98n*ity5h2+*B,5k|I2@%StQy[MkYqoy:eKYs(KB>4+^6=eFj9)f,eSQign0xw#
 <@WKVSo|g09ASY!oLjGD4zKkR9C#.(:c=0=>)B!;4Fk3D+he6Bo!?Hy(~Az,kzGy2k>47lhK!3hXsxZU)SM<6?2L17#$cHLnHpc
 yei##xo[yX;jbhd.vC9MU8IM8=Z*QK8bSdQnVJ2L%NeLJhFP03F~H6U6@.5qTliVhVM%O3S4UdaUgwML+cxQKpoq)+]Mi7!CkY.
 D*Wq+T;uw+$4)2db,cV~)ghS<Z!)C;[b&|D,oPs1QLKSNc@+.5^jCm&f7zoX@?<T3hWVq&caDf!!3~nL??G(baoqYIS7]u|L!k,
 eAR$RU&fSOu+emF@nn1~!x)x).(yY!3FQTaxLnw.B<lRTUqE+J|f%_of30q~(5aJXH6]<ilM^12<(NV*4ocoX1=rbkYh$DFV&>b
 .Z~KRIh[)YON<[]j|i.0]~LcZlPt8|l2,@O^,4ATWC9__h2:yo%SlK,dAq3co:Ft^Vwl=ETs[TjOqISTV8?*P?VzX^GmufxjUCW
 g@v1MejH&y?0cl;];h0z(aBQ(3bZ4:Mq@D,51%LilHpx#vcRgm6XIoXw][Flx<v$t|~<!S?J539maZ,vtVS,^GPE7b|qr|8;Nnm
 JoDdUxr%q&:K+c7Iaz#o~FnJU^ro63q85[?IkO$Wxsb<~2DS:3%MFVYq$SBkfQ@OYw<$@*b$Okd|^Jz7pZ,cdrbrFj5A*;:;h~P
 uqDCKZ~9p#QORYwK8ThC=88B^l@y@^ZZR2cL(gsONeZ0h=lBrOMC(BUW8GRh(Igqt^xPU.R^3Ag|d6gKW9jIN;eu]]+jgu.~77G
 M,@*H<@a+FrV;s8bOA>hyQ6T1m)SBV?y~?[2rYpYbOvv~4u%X5,m%e%>sGw0|rEa5g^w~S9v;a72oO^4KlY9eHUd#@*Mb~zm7+6
 #A3pwU=%r4j0!<=)4vsJ;IIh)ml4#f&;K$=em^dkLfi3_pxF<#=9gf<dV^?jt=:?;bnoe=mL^HI]jiw9L%Pk(uJ2>07wc^<NN&e
 *Ne@<r~[c=>[@BoB+.Y,B;aRH6B|xJ:JwQ6PfWJQCI4>CfJ4Uz8ru~0q[zEY[.mfrN<>pN?ZQ>l_Cypi]7j,Hr+Bg_6>_(f;=Ep
 M^cD2a^rPt%>ESd!&+6Dk#>=&GK>z+TI(b.yMIU)Eh^uPR?[=o0pwc(~FZh0?^7s0E);v7,fpHTJeAj*#6(LtJFwm~E4q2<4cbL
 3g,[#Vl5$0=RLeHY<)OLq.fTzE1.C]d29f7fF![QNhvLDQ,3EHTm7#iC946G:)$|XG,fS!i=hM0ZQOWoiUSs$xR17,q9pW&Vqw?
 01g46?.)NuS5J4xX+woIW?5:J~7s&Z%BtyRF,ss(CImI_L:QeS_f)fZIS|uD)mHl4ImWlIp6Et$J%039^h6d9x4!M2UtiHRzs:)
 ~mg*VAFls0.?WF,_DP+|XFa8?du)Yo.]nK?0<*Oat7kx]E6F|8Nx(OJ,dgw?555(k7_=+=|gGha@Za^#cgQ44zH~IyH?D<YU&n0
 <L1z2LGFC9W;i~wwP^~;!h.[9Sd=P~reHp5N2sgsGc=kSNm;BWEbQLy9.7dq5qld~lGl5,^ia#7Or.S[8Dvt8KrS+3_IS|:t4.j
 ZJ~az[vIN^RNg,N0o2&CDUG=P72zCnAeB?Gha~?VSb,P$U2=$)mI+J|&!@A~~]YVbb+[;8R7;gZ+6zC]#tQe,TA:R_jyyvXv#)I
 kAU&&ZRZft<Y=<p(%$3a@z@:i2%RpAROQ_^%~p~33dqFQ1WZ9qwM8KyN_n)0?F6iRScq=px^(BsOf=KL7!BoeF*q41:I(v05nG~
 w[mIPlNzuN4_TB$EzpK~~Xdgife#tjPfl%,M~;^*P!TYWxv!a!V!w!jDM?h%o+t1dplFMlU)l8HDOilzUZUas8_U^@*iCASAZfJ
 ]<CYq90b:lM@b|Ydkb=MU1deDW2T^,b<c7P4qGUdi$Gq,SMUx1xb0ow;cLTeRlsZ$)md2gf(:BYH_o<3B35Twv+9WCiZad2$T9h
 P8cT1w^LaND_#e@%jlE^sXv+~&?]!7h71jd,PO1P,Ix,Jc."⟩

end Docsmith.Hosting
